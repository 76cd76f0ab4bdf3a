import KlipperMcu.Link.ButtonsLink

/-!
# The state of the buttons on the host

The timer keeps the debounced state up to date when there is no room for a report. As long as there
is room, the last report is the debounced state.
-/

namespace KlipperMcu.Input

open Lib

/-- A pin has read differently from the debounced state twice in a row. -/
def Debounced (b : Buttons) (status : UInt8) : Prop :=
  (status ^^^ b.pressed) &&& ~~~(status ^^^ b.lastPressed) ≠ 0

/-- There is room for a report whenever a pin has changed for good. -/
def Roomy {κ : Type} (s : Link κ) : Action → Prop
  | .event levels => Debounced s.mcu.b (readPins levels) → s.mcu.b.reportCount < reportsSize
  | _ => True

instance instDecidableDebounced (b : Buttons) (status : UInt8) : Decidable (Debounced b status) :=
  inferInstanceAs (Decidable (_ ≠ _))

instance instDecidableRoomy {κ : Type} (s : Link κ) (a : Action) : Decidable (Roomy s a) :=
  match a with
  | .event levels =>
    inferInstanceAs (Decidable (Debounced s.mcu.b (readPins levels) → s.mcu.b.reportCount < _))
  | .wake => .isTrue trivial
  | .main => .isTrue trivial
  | .ack => .isTrue trivial
  | .handle => .isTrue trivial
  | .lose _ => .isTrue trivial

section Pressed

variable {κ : Type} {s s' : Link κ}

lemma debounce_pressed {b : Buttons} {status : UInt8}
    (hroom : Debounced b status → b.reportCount < reportsSize) :
    (debounce b status).b.pressed = (debounce b status).report.getD b.pressed := by
  unfold debounce
  dsimp only
  split
  · rename_i hchanged
    rw [if_pos (hroom hchanged.2)]
    rfl
  · rfl

lemma buttonsEvent_pressed {b : Buttons} {levels : List Bool}
    (hroom : Debounced b (readPins levels) → b.reportCount < reportsSize) :
    (buttonsEvent b levels).b.pressed = (buttonsEvent b levels).report.getD b.pressed := by
  unfold buttonsEvent
  dsimp only
  rw [checkRetransmit_eq]
  exact debounce_pressed hroom

lemma run_pressed {c c' : Mcu} {msg : Option ButtonsState} (h : c.run = some (c', msg)) :
    c'.b.pressed = c.b.pressed := by
  have hack : ∀ count, (ackReports c.b count).pressed = c.b.pressed := by
    intro count
    unfold ackReports
    split <;> rfl
  unfold Mcu.run at h
  grind

/-- The last report, or the state of the query. -/
def Link.reported (s : Link κ) (invert : UInt8) : UInt8 := s.queued.getLast?.getD invert

lemma reported_step {invert : UInt8} {a : Action} (h : s.reported invert = s.mcu.b.pressed)
    (hl : Roomy s a) (hs : step s a = some s') : s'.reported invert = s'.mcu.b.pressed := by
  cases a with
  | event levels =>
    obtain rfl := Option.some.inj hs
    change (s.queued ++ _).getLast?.getD invert = (buttonsEvent s.mcu.b levels).b.pressed
    rw [buttonsEvent_pressed hl, ← h]
    cases (buttonsEvent s.mcu.b levels).report with
    | none => simp [Link.reported]
    | some r => simp
  | wake =>
    obtain rfl := Option.some.inj hs
    exact h
  | main =>
    obtain ⟨⟨mcu, msg⟩, hrun, rfl⟩ := Option.map_eq_some_iff.mp hs
    exact h.trans (run_pressed hrun).symm
  | ack =>
    rw [step] at hs
    split at hs
    · cases hs
    · obtain ⟨mcu, hstart, rfl⟩ := Option.map_eq_some_iff.mp hs
      obtain ⟨-, hstart⟩ := Option.ite_none_right_eq_some.mp hstart
      obtain rfl := Option.some.inj hstart
      exact h
  | handle =>
    rw [step] at hs
    split at hs
    · cases hs
    · obtain rfl := Option.some.inj hs
      exact h
  | lose i =>
    obtain rfl := Option.some.inj hs
    exact h

end Pressed

/-- The last report is the debounced state, and the host has processed it when no report is queued
any more. -/
theorem reported_eq_pressed {κ : Type} {b₀ b : Buttons} {clock restTicks : UInt32}
    {retransmitCount invert : UInt8} {wake : Bool} {host : McuButtons κ} {actions : List Action}
    {s : Link κ}
    (hq : commandButtonsQuery b₀ clock restTicks retransmitCount invert = some b)
    (hcount : host.ackCount = 0) (hnew : host.processed = [])
    (h : Run step Roomy (queried b wake host) actions s) :
    s.reported invert = s.mcu.b.pressed ∧
      (s.mcu.b.reportCount = 0 → s.host.processed.getLast?.getD invert = s.mcu.b.pressed) := by
  have hreported : s.reported invert = s.mcu.b.pressed := by
    induction h with
    | nil =>
      obtain ⟨-, hq⟩ := Option.ite_none_left_eq_some.mp hq
      obtain rfl := Option.some.inj hq
      rfl
    | snoc _ hl hs ih => exact reported_step ih hl hs
  refine ⟨hreported, fun hnone => ?_⟩
  rw [(inv_of_run hq hcount hnew h).processed_eq hnone]
  exact hreported

/-- A button after a query of an object that was in use, and a host that has processed nothing. -/
def requeried : Link Unit :=
  queried ⟨100, 200, 0, 0, 0, fun _ => 7, 0, bfAcked, 50⟩ false ⟨0, 0, 0, [], [], []⟩

lemma requeried_eq :
    commandButtonsQuery ⟨0, 0, 0, 0, 3, fun _ => 7, 5, 0, 0⟩ 100 200 50 0 = some requeried.mcu.b :=
  rfl

/-- A button that is pressed until the host knows of it. -/
def pressActions : List Action :=
  [Action.event [true], .event [true]] ++ List.replicate 6 Action.main ++
    [Action.handle, .ack, .main]

theorem reported_eq_pressed_press :
    ∃ s, Run step Roomy requeried pressActions s ∧ s.mcu.b.reportCount = 0 ∧ s.reported 0 = 1 ∧
      s.mcu.b.pressed = 1 ∧ s.host.processed.getLast?.getD 0 = 1 := by
  obtain ⟨s, hrun, hs⟩ : ∃ s, Run step Roomy requeried pressActions s ∧
      decide (s.mcu.b.reportCount = 0 ∧ s.mcu.b.pressed = 1) = true :=
    Run.exists_of_exec _ _ (by decide +kernel)
  obtain ⟨hnone, hpressed⟩ := of_decide_eq_true hs
  obtain ⟨hreported, hlast⟩ := reported_eq_pressed requeried_eq rfl rfl hrun
  exact ⟨s, hrun, hnone, hreported.trans hpressed, hpressed, (hlast hnone).trans hpressed⟩

/-- A button that changes nine times before `buttons_task` runs, and then stays pressed. -/
def burstActions : List Action :=
  (List.replicate 4
      [Action.event [true], .event [true], .event [false], .event [false]]).flatten ++
    [Action.event [true], .event [true], .event [true]] ++ List.replicate 13 Action.main ++
    [Action.handle, .ack, .main]

/-- The host has acknowledged all eight reports, of which the last one is not about the last
change. -/
theorem reported_ne_pressed :
    ∃ s, Run step Legal requeried burstActions s ∧ s.mcu.b.reportCount = 0 ∧
      s.host.processed = s.queued ∧ s.reported 0 = 0 ∧ s.mcu.b.pressed = 1 := by
  obtain ⟨s, hrun, hs⟩ : ∃ s, Run step Legal requeried burstActions s ∧
      decide (s.mcu.b.reportCount = 0 ∧ s.host.processed = s.queued ∧ s.reported 0 = 0 ∧
        s.mcu.b.pressed = 1) = true :=
    Run.exists_of_exec _ _ (by decide +kernel)
  exact ⟨s, hrun, of_decide_eq_true hs⟩

end KlipperMcu.Input
