import KlipperMcu.Firmware.Uptime
import KlipperMcu.Host.ClockSync

/-!
# The clock of a micro-controller on the host

The host asks for the uptime when it connects and for the clock about every second from then on. A
micro-controller counts its turns in `stats_update` only, and the host counts them from the messages
that it gets. As long as neither misses a turn, the host knows the time since boot, and the full
value of every clock that is not half a turn away.
-/

namespace KlipperMcu.Clocks

open Lib Uptime

/-- The host after the `clock` messages that were sent at these times. -/
def clockAfter (c : ClockSync) (samples : List Nat) : ClockSync :=
  samples.foldl (fun c t => handleClock c (UInt32.ofNat t)) c

/-- The messages come in the order of their times, at least one per turn of the clock. -/
def SeenEachTurn (t₀ : Nat) (samples : List Nat) : Prop :=
  (t₀ :: samples).IsChain fun x y => x ≤ y ∧ y < x + 2 ^ 32

instance (t₀ : Nat) (samples : List Nat) : Decidable (SeenEachTurn t₀ samples) :=
  inferInstanceAs (Decidable (List.IsChain _ _))

/-- The time of the last message. -/
def lastSeen (t₀ : Nat) (samples : List Nat) : Nat := (t₀ :: samples).getLast (List.cons_ne_nil _ _)

/-- The host knows that the micro-controller was at `now` when it sent the last message. It extends
every clock within half a turn of this to the time that it stands for. -/
structure Follows (c : ClockSync) (now : Nat) : Prop where
  lastClock : c.lastClock = now
  clock32ToClock64 : ∀ event : Nat, now ≤ event + 2 ^ 31 → event < now + 2 ^ 31 →
    clock32ToClock64 c (UInt32.ofNat event) = event
  clockFromClock32 : ∀ {τ : Type} (ce : Trigger.ClockEstimate τ), ce.lastClock = UInt64.ofNat now →
    ∀ event : Nat, now ≤ event + 2 ^ 31 → event < now + 2 ^ 31 →
      Trigger.clockFromClock32 ce (UInt32.ofNat event) = UInt64.ofNat event

section Follows

variable {c : ClockSync} {t₀ now : Nat} {samples : List Nat}

lemma toNat_ofNat_emod (n : Nat) :
    ((UInt32.ofNat n).toNat : Int) % 2 ^ 32 = (n : Int) % 2 ^ 32 := by
  rw [UInt32.toNat_ofNat']
  omega

lemma follows_of_lastClock (h : c.lastClock = now) : Follows c now where
  lastClock := h
  clock32ToClock64 := by
    intro event hle hlt
    rw [clock32ToClock64_eq, h]
    exact extendNearest_eq (toNat_ofNat_emod event) (by omega) (by omega)
  clockFromClock32 := by
    intro τ ce hce event hle hlt
    apply UInt64.toNat_inj.mp
    apply Int.natCast_inj.mp
    have hlast : ((UInt64.ofNat now).toNat : Int) = now % 2 ^ 64 := by
      rw [UInt64.toNat_ofNat']
      exact Int.natCast_emod _ _
    have hturns := Int.mul_ediv_add_emod (now : Int) (2 ^ 64)
    rw [clockFromClock32_eq, hce, hlast, UInt64.toNat_ofNat',
      extendNearest_eq (x := event - 2 ^ 64 * ((now : Int) / 2 ^ 64))]
    · omega
    · rw [toNat_ofNat_emod]
      omega
    · omega
    · omega

lemma connect_eq (high clock : UInt32) :
    (connect high clock).lastClock = (UptimeReply.ticks ⟨high, clock⟩ : Int) := by
  have hlt : (clock.toNat : Int) < 2 ^ 32 := by
    have := clock.toNat_lt
    omega
  unfold connect UptimeReply.ticks
  dsimp only
  rw [Int.shiftLeft_eq, lor_of_lt 32 _ (Int.natCast_nonneg _) hlt]
  omega

lemma lastClock_clockAfter (h : c.lastClock = t₀) (hsamples : SeenEachTurn t₀ samples) :
    (clockAfter c samples).lastClock = lastSeen t₀ samples := by
  rw [lastSeen, ← foldl_extendForward toNat_ofNat_emod hsamples, ← h]
  unfold clockAfter
  generalize samples = l
  clear hsamples h
  induction l generalizing c with
  | nil => rfl
  | cons t l ih =>
    rw [List.foldl_cons, List.foldl_cons, ih, handleClock_eq]

lemma follows_clockAfter {due : UInt32 → UInt32 → Bool} {period gap : Nat}
    (hdue : DueEvery due period gap) {updates : List Update} (hgaps : ∀ u ∈ updates, u.gap < gap)
    {delay : Nat} (hdelay : delay < gap) (hold : lastUpdate updates + delay < 2 ^ 64)
    (hsamples : SeenEachTurn (lastUpdate updates + delay) samples) :
    let reply := commandGetUptime (UInt32.ofNat (lastUpdate updates + delay))
      (afterUpdates (updateStats due) 0 boot updates)
    Follows (clockAfter (connect reply.high reply.clock) samples)
      (lastSeen (lastUpdate updates + delay) samples) := by
  intro reply
  apply follows_of_lastClock
  apply lastClock_clockAfter _ hsamples
  rw [connect_eq]
  have hticks := ticks_of_updates hdue hgaps hdelay
  rw [Nat.mod_eq_of_lt hold] at hticks
  exact congrArg Nat.cast hticks

end Follows

end KlipperMcu.Clocks
