import KlipperMcu.Firmware.MainBoardDigital
import Mathlib.Algebra.BigOperators.Group.List.Basic

/-!
# The time since boot

The clocks of the boards have 32 bits. A high word is counted by the statistics of the tasks, which
are sent every five seconds: `stats_update` adds one when the clock has a lower value than at the
last report, and so does `get_uptime` for its reply. The two boards differ in the test that a report
is due. The level board takes the sign of a difference, the main board compares unsigned numbers.
Between two updates less time may pass than what the test leaves of a turn of the clock.
-/

namespace KlipperMcu.Uptime

open Lib

/-- The sums of the task times, and the time of the last report with its high word. -/
structure Stats where
  count : UInt32
  sum : UInt32
  sumsq : UInt32
  statsSendTime : UInt32
  statsSendTimeHigh : UInt32
deriving DecidableEq, Repr

/-- The fields of a `stats` message. -/
structure StatsReport where
  count : UInt32
  sum : UInt32
  sumsq : UInt32
deriving DecidableEq, Repr

/-- The fields of an `uptime` message. -/
structure UptimeReply where
  high : UInt32
  clock : UInt32
deriving DecidableEq, Repr

/-- The sum of the squares, in units of 256, or the largest number if that is too small for it. -/
def nextSumsq (sumsq diff : UInt32) : UInt32 :=
  let nextsumsq :=
    if diff ≤ 0xffff then sumsq + (diff * diff + 255) / 256
    else if diff ≤ 0xfffff then sumsq + (diff + 255) / 256 * diff
    else 0xffffffff
  if nextsumsq < sumsq then 0xffffffff else nextsumsq

/-- The sums with a task from `start` to `cur`. -/
def addTask (start cur : UInt32) (s : Stats) : Stats :=
  { s with
    count := s.count + 1
    sum := s.sum + (cur - start)
    sumsq := nextSumsq s.sumsq (cur - start) }

/-- What follows when the report was sent. -/
def startPeriod (cur : UInt32) (s : Stats) : Stats where
  count := 0
  sum := 0
  sumsq := 0
  statsSendTime := cur
  statsSendTimeHigh :=
    if cur < s.statsSendTime then s.statsSendTimeHigh + 1 else s.statsSendTimeHigh

/-- `stats_update` for a test `due cur statsSendTime` that a report is due. -/
def updateStats (due : UInt32 → UInt32 → Bool) (start cur : UInt32) (s : Stats) :
    Stats × Option StatsReport :=
  let s := addTask start cur s
  if due cur s.statsSendTime then (startPeriod cur s, some ⟨s.count, s.sum, s.sumsq⟩) else (s, none)

def LevelBoard.statsDue (cur statsSendTime : UInt32) : Bool :=
  !Sched.timerIsBefore cur (statsSendTime + Sched.timerFromUs 5000000)

def LevelBoard.statsUpdate : UInt32 → UInt32 → Stats → Stats × Option StatsReport :=
  updateStats LevelBoard.statsDue

def MainBoard.statsDue (now previousSendTime : UInt32) : Bool :=
  !decide (now - previousSendTime < MainBoard.timerFromUs 5000000)

def MainBoard.statsUpdate : UInt32 → UInt32 → Stats → Stats × Option StatsReport :=
  updateStats MainBoard.statsDue

/-- It is the same on both boards. -/
def commandGetUptime (cur : UInt32) (s : Stats) : UptimeReply where
  high := s.statsSendTimeHigh + if cur < s.statsSendTime then 1 else 0
  clock := cur

/-- The number of ticks that a reply stands for. -/
def UptimeReply.ticks (r : UptimeReply) : Nat := r.high.toNat * 2 ^ 32 + r.clock.toNat

def boot : Stats := ⟨0, 0, 0, 0, 0⟩

/-- An update `gap` ticks after the one before it, for a task that started at `start`. -/
structure Update where
  gap : Nat
  start : UInt32
deriving DecidableEq, Repr

/-- The time of the last update. -/
def lastUpdate (updates : List Update) : Nat := (updates.map Update.gap).sum

/-- The statistics after some updates, the first of them after the time `now`. -/
def afterUpdates (update : UInt32 → UInt32 → Stats → Stats × Option StatsReport) :
    Nat → Stats → List Update → Stats
  | _, s, [] => s
  | now, s, u :: updates =>
    afterUpdates update (now + u.gap) (update u.start (UInt32.ofNat (now + u.gap)) s).1 updates

/-! ### Any test -/

/-- The test is right for reports every `period` ticks, as long as the updates are less than `gap`
ticks apart. -/
structure DueEvery (due : UInt32 → UInt32 → Bool) (period gap : Nat) : Prop where
  pos : 0 < period
  turn : period + gap ≤ 2 ^ 32
  due_iff : ∀ {sent now : Nat}, sent ≤ now → now < sent + (period + gap) →
    (due (UInt32.ofNat now) (UInt32.ofNat sent) = true ↔ sent + period ≤ now)

/-- The last report was sent at `sent`, less than a period before `now`. -/
structure SentAt (period sent now : Nat) (s : Stats) : Prop where
  le : sent ≤ now
  lt : now < sent + period
  time : s.statsSendTime = UInt32.ofNat sent
  high : s.statsSendTimeHigh = UInt32.ofNat (sent / 2 ^ 32)

section Updates

variable {due : UInt32 → UInt32 → Bool} {period gap sent now later : Nat} {s : Stats}

/-- Within a turn of the clock there is at most one carry, and it shows in the clock. -/
lemma ofNat_lt_ofNat_iff (hle : sent ≤ now) (hlt : now < sent + 2 ^ 32) :
    UInt32.ofNat now < UInt32.ofNat sent ↔ now / 2 ^ 32 = sent / 2 ^ 32 + 1 := by
  rw [UInt32.lt_iff_toNat_lt, UInt32.toNat_ofNat', UInt32.toNat_ofNat']
  omega

lemma high_add_carry (hle : sent ≤ now) (hlt : now < sent + 2 ^ 32) :
    UInt32.ofNat (sent / 2 ^ 32) + (if UInt32.ofNat now < UInt32.ofNat sent then 1 else 0) =
      UInt32.ofNat (now / 2 ^ 32) := by
  by_cases h : now / 2 ^ 32 = sent / 2 ^ 32 + 1
  · rw [if_pos ((ofNat_lt_ofNat_iff hle hlt).mpr h), h, UInt32.ofNat_add]
    rfl
  · rw [if_neg (mt (ofNat_lt_ofNat_iff hle hlt).mp h), UInt32.add_zero]
    congr 1
    omega

lemma fst_updateStats (due : UInt32 → UInt32 → Bool) (start cur : UInt32) (s : Stats) :
    (updateStats due start cur s).1 =
      if due cur s.statsSendTime then startPeriod cur (addTask start cur s)
      else addTask start cur s :=
  apply_ite Prod.fst (due cur s.statsSendTime = true) _ _

lemma SentAt.startPeriod (h : SentAt period sent now s) (hpos : 0 < period)
    (hle : sent ≤ later) (hlt : later < sent + 2 ^ 32) (start : UInt32) :
    SentAt period later later
      (startPeriod (UInt32.ofNat later) (addTask start (UInt32.ofNat later) s)) := by
  refine ⟨le_rfl, by omega, rfl, ?_⟩
  change (if _ < s.statsSendTime then s.statsSendTimeHigh + 1 else s.statsSendTimeHigh) = _
  rw [h.time, h.high, ← high_add_carry hle hlt]
  split_ifs
  · rfl
  · rw [UInt32.add_zero]

lemma SentAt.update (h : SentAt period sent now s) (hdue : DueEvery due period gap)
    (hle : now ≤ later) (hlt : later < now + gap) (start : UInt32) :
    ∃ sent', SentAt period sent' later (updateStats due start (UInt32.ofNat later) s).1 := by
  have hsent := h.le
  have hnow := h.lt
  have hturn := hdue.turn
  have hiff := @DueEvery.due_iff _ _ _ hdue sent later (by omega) (by omega)
  rw [fst_updateStats, h.time]
  by_cases hreport : sent + period ≤ later
  · rw [if_pos (hiff.mpr hreport)]
    exact ⟨later, h.startPeriod hdue.pos (by omega) (by omega) start⟩
  · rw [if_neg (mt hiff.mp hreport)]
    exact ⟨sent, by omega, by omega, h.time, h.high⟩

lemma SentAt.afterUpdates (h : SentAt period sent now s) (hdue : DueEvery due period gap)
    {updates : List Update} (hgaps : ∀ u ∈ updates, u.gap < gap) :
    ∃ sent', SentAt period sent' (now + lastUpdate updates)
      (afterUpdates (updateStats due) now s updates) := by
  induction updates generalizing sent now s with
  | nil => exact ⟨sent, h⟩
  | cons u updates ih =>
    obtain ⟨hu, hrest⟩ := List.forall_mem_cons.mp hgaps
    obtain ⟨sent', h'⟩ := h.update hdue (by omega : now ≤ now + u.gap) (by omega) u.start
    obtain ⟨sent'', h''⟩ := ih h' hrest
    refine ⟨sent'', ?_⟩
    rw [Nat.add_assoc] at h''
    exact h''

lemma SentAt.ticks (h : SentAt period sent now s) (hdue : DueEvery due period gap)
    (hle : now ≤ later) (hlt : later < now + gap) :
    (commandGetUptime (UInt32.ofNat later) s).ticks = later % 2 ^ 64 := by
  have hsent := h.le
  have hnow := h.lt
  have hturn := hdue.turn
  have hcarry := @high_add_carry sent later (by omega) (by omega)
  rw [UptimeReply.ticks, commandGetUptime]
  dsimp only
  rw [h.time, h.high, hcarry, UInt32.toNat_ofNat', UInt32.toNat_ofNat']
  omega

lemma ticks_of_updates (hdue : DueEvery due period gap) {updates : List Update}
    (hgaps : ∀ u ∈ updates, u.gap < gap) {delay : Nat} (hdelay : delay < gap) :
    (commandGetUptime (UInt32.ofNat (lastUpdate updates + delay))
      (afterUpdates (updateStats due) 0 boot updates)).ticks =
        (lastUpdate updates + delay) % 2 ^ 64 := by
  have hboot : SentAt period 0 0 boot := ⟨le_rfl, by have := hdue.pos; omega, rfl, rfl⟩
  obtain ⟨sent, h⟩ := hboot.afterUpdates hdue hgaps
  rw [Nat.zero_add] at h
  exact h.ticks hdue (by omega) (by omega)

end Updates

/-! ### The two tests -/

lemma toNat_sub_ofNat {sent now : Nat} (hle : sent ≤ now) (hlt : now < sent + 2 ^ 32) :
    (UInt32.ofNat now - UInt32.ofNat sent).toNat = now - sent := by
  rw [UInt32.toNat_sub, UInt32.toNat_ofNat', UInt32.toNat_ofNat']
  omega

lemma levelBoard_dueEvery : DueEvery LevelBoard.statsDue 640000000 (2 ^ 31) where
  pos := by decide
  turn := by decide
  due_iff := by
    intro sent now hle hlt
    have hperiod : (Sched.timerFromUs 5000000).toNat = 640000000 := by decide
    rw [LevelBoard.statsDue, Bool.not_eq_true', ← Bool.not_eq_true, Sched.timerIsBefore,
      wrapBefore_iff, UInt32.toNat_sub, UInt32.toNat_add, hperiod, UInt32.toNat_ofNat',
      UInt32.toNat_ofNat']
    omega

lemma mainBoard_dueEvery : DueEvery MainBoard.statsDue 3000000000 (2 ^ 32 - 3000000000) where
  pos := by decide
  turn := by decide
  due_iff := by
    intro sent now hle hlt
    have hperiod : (MainBoard.timerFromUs 5000000).toNat = 3000000000 := by decide
    rw [MainBoard.statsDue, Bool.not_eq_true', decide_eq_false_iff_not, UInt32.lt_iff_toNat_lt,
      hperiod, toNat_sub_ofNat hle (by omega)]
    omega

/-- On both boards the reply is the time since boot, up to the size of its two words. -/
theorem uptime_of_updates (updates : List Update) (delay : Nat) :
    ((∀ u ∈ updates, u.gap < 2 ^ 31) → delay < 2 ^ 31 →
      (commandGetUptime (UInt32.ofNat (lastUpdate updates + delay))
        (afterUpdates LevelBoard.statsUpdate 0 boot updates)).ticks =
          (lastUpdate updates + delay) % 2 ^ 64) ∧
    ((∀ u ∈ updates, u.gap < 2 ^ 32 - 3000000000) → delay < 2 ^ 32 - 3000000000 →
      (commandGetUptime (UInt32.ofNat (lastUpdate updates + delay))
        (afterUpdates MainBoard.statsUpdate 0 boot updates)).ticks =
          (lastUpdate updates + delay) % 2 ^ 64) := by
  constructor
  · intro hgaps hdelay
    exact ticks_of_updates levelBoard_dueEvery hgaps hdelay
  · intro hgaps hdelay
    exact ticks_of_updates mainBoard_dueEvery hgaps hdelay

/-- A turn of the clock with an update in each half of it. -/
theorem uptime_of_updates_turn :
    (commandGetUptime (UInt32.ofNat (4294967296 + 100))
      (afterUpdates LevelBoard.statsUpdate 0 boot
        [⟨2000000000, 0⟩, ⟨2000000000, 0⟩, ⟨294967296, 0⟩])).ticks = 4294967296 + 100 ∧
    (commandGetUptime (UInt32.ofNat (4000000000 + 1000000000))
      (afterUpdates MainBoard.statsUpdate 0 boot
        [⟨1000000000, 0⟩, ⟨1000000000, 0⟩, ⟨1000000000, 0⟩, ⟨1000000000, 0⟩])).ticks =
      4000000000 + 1000000000 :=
  ⟨(uptime_of_updates [⟨2000000000, 0⟩, ⟨2000000000, 0⟩, ⟨294967296, 0⟩] 100).1
      (by decide) (by decide),
    (uptime_of_updates [⟨1000000000, 0⟩, ⟨1000000000, 0⟩, ⟨1000000000, 0⟩, ⟨1000000000, 0⟩]
      1000000000).2 (by decide) (by decide)⟩

/-- After `2 ^ 64` ticks the reply starts again at zero. -/
theorem uptime_after_both_words :
    (∀ u ∈ List.replicate (2 ^ 34) (⟨2 ^ 30, 0⟩ : Update), u.gap < 2 ^ 31) ∧
      lastUpdate (List.replicate (2 ^ 34) ⟨2 ^ 30, 0⟩) = 2 ^ 64 ∧
      (commandGetUptime (UInt32.ofNat (2 ^ 64))
        (afterUpdates LevelBoard.statsUpdate 0 boot
          (List.replicate (2 ^ 34) ⟨2 ^ 30, 0⟩))).ticks = 0 := by
  have hlast : lastUpdate (List.replicate (2 ^ 34) ⟨2 ^ 30, 0⟩) = 2 ^ 64 := by
    rw [lastUpdate, List.map_replicate, List.sum_replicate]
    rfl
  have hgaps : ∀ u ∈ List.replicate (2 ^ 34) (⟨2 ^ 30, 0⟩ : Update), u.gap < 2 ^ 31 := by
    intro u hu
    rw [List.eq_of_mem_replicate hu]
    decide
  have hticks := ticks_of_updates levelBoard_dueEvery hgaps (by decide : 0 < 2 ^ 31)
  rw [hlast] at hticks
  exact ⟨hgaps, hlast, hticks⟩

end KlipperMcu.Uptime
