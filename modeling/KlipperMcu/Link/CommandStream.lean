import KlipperMcu.Link.CommandLink
import KlipperMcu.Link.NotifyLink

/-!
# Commands over the serial link

The commands of the host, the link that loses blocks, and the dispatcher of the firmware: handlers
are called for the commands in the order in which these have entered blocks, once for each.
-/

namespace KlipperMcu.Commands

open Lib Wire MsgProto Serial

/-- A block calls the handlers of a batch of commands in their order, with the values that were
sent, whatever the state of a firmware that is running and whatever follows the block. -/
def Calls {σ φ : Type} (env : Env σ φ) (index : List (CommandParser φ)) (base : UInt32)
    (batch : List (Command φ)) (block : List UInt8) : Prop :=
  ∀ s rest, env.isShutdown s = false →
    let d := commandDispatch env index base (block ++ rest) block.length s
    d.stop = none ∧ List.Forall₂ (fun c call => call.parser = c.parser ∧
      Carries base (block ++ rest) c.sent call.args) batch d.calls

section Stream

variable {σ φ : Type} {env : Env σ φ} {index : List (CommandParser φ)}

lemma calls_commandAddFrame (hreturns : Returns env) {batch : List (Command φ)}
    {msgs : List (List UInt8)} (hcmds : ∀ c ∈ batch, c.FromTable index)
    (hencode : List.Forall₂ (fun c m => c.format.encode c.params = .ok m) batch msgs) {seq : UInt8}
    (hlen : msgs.flatten.length ≤ messagePayloadMax) (base : UInt32) :
    Calls env index base batch (commandAddFrame seq msgs.flatten) := by
  intro s rest hs
  obtain ⟨trailer, hframe⟩ : ∃ trailer, commandAddFrame seq msgs.flatten ++ rest =
      [UInt8.ofNat (msgs.flatten.length + messageMin), seq] ++ msgs.flatten ++ trailer :=
    ⟨_, List.append_assoc _ _ rest⟩
  unfold commandDispatch
  rw [length_commandAddFrame, show msgs.flatten.length + messageMin - messageTrailerSize =
    2 + msgs.flatten.length by unfold messageMin messageTrailerSize; omega]
  exact dispatchLoop_encode hreturns hcmds hencode hframe rfl
    (Nat.lt_of_le_of_lt (Nat.add_le_add_left hlen 2) (by decide)) (Nat.le_add_right _ _) hs

lemma built_of_dispatchStep {s s' : DispatchLink} {a : DispatchAction} (hs : s.step a = some s') :
    s'.link.built = s.link.built ∨ ∃ seq payload, payload.length ≤ messagePayloadMax ∧
      s'.link.built = s.link.built ++ [commandAddFrame seq payload] := by
  cases a with
  | link a =>
    cases a with
    | build clocks =>
      right
      obtain ⟨link, hlink, rfl⟩ := Option.map_eq_some_iff.mp hs
      obtain ⟨⟨sq, out⟩, hround, rfl⟩ := Option.map_eq_some_iff.mp hlink
      obtain ⟨-, payload, hlen, rfl, -⟩ := commandEventRound_spec hround
      exact ⟨_, payload, hlen, rfl⟩
    | find k =>
      left
      unfold DispatchLink.step at hs
      dsimp only at hs
      split at hs
      · cases hs
        exact built_find s.link k
      · cases hs
    | check clocks =>
      obtain ⟨link, hlink, rfl⟩ := Option.map_eq_some_iff.mp hs
      rw [eq_of_step_check hlink]
      exact Or.inl rfl
    | input k =>
      cases hs
      exact Or.inl (built_input s.link k)
    | _ =>
      cases hs
      exact Or.inl rfl
  | dispatchEnd =>
    unfold DispatchLink.step at hs
    dsimp only at hs
    split at hs
    · cases hs
      exact Or.inl rfl
    · cases hs
  | sendAck =>
    unfold DispatchLink.step at hs
    dsimp only at hs
    split at hs
    · cases hs
      exact Or.inl rfl
    · cases hs

lemma length_built {s₀ s : DispatchLink} {actions : List DispatchAction}
    (h₀ : s₀.link.built = []) (h : Run DispatchLink.step DispatchLink.Legal s₀ actions s) :
    ∀ block ∈ s.link.built, block.length ≤ messagePayloadMax + messageMin := by
  apply h.invariant
  · rw [h₀]
    nofun
  · intro s a s' hi _ hs block hblock
    rcases built_of_dispatchStep hs with hbuilt | ⟨seq, payload, hlen, hbuilt⟩
    · exact hi block (hbuilt ▸ hblock)
    · rw [hbuilt] at hblock
      rcases List.mem_append.mp hblock with hblock | hblock
      · exact hi block hblock
      · rw [List.mem_singleton.mp hblock, length_commandAddFrame]
        exact Nat.add_le_add_right hlen _

end Stream

/-- In every run, whatever blocks are lost and sent again, the blocks that were dispatched have
called the handlers of the first batches of commands, one block for each batch. -/
theorem commands_of_run {σ φ : Type} {env : Env σ φ} {index : List (CommandParser φ)}
    {s₀ s : DispatchLink} {actions : List DispatchAction} (h₀ : s₀.Idle)
    (h : Run DispatchLink.step DispatchLink.Legal s₀ actions s) (hreturns : Returns env)
    {cmds : List (List (Command φ))} (hcmds : ∀ batch ∈ cmds, ∀ c ∈ batch, c.FromTable index)
    (hencode : List.Forall₂ (List.Forall₂ fun c e => c.format.encode c.params = .ok e.2.msg) cmds
      s.packed) (base : UInt32) :
    List.Forall₂ (Calls env index base) (cmds.take s.dispatched.length) s.dispatched := by
  have hinv : s.Inv s₀.link.sq.sendSeq := h.invariant h₀.inv fun _ _ _ hi ha hs => hi.step ha hs
  have hbuilt : s.dispatched <+: s.link.built := by
    apply hinv.dispatched.trans
    rw [hinv.sound.coupled.accepted]
    exact List.take_prefix _ _
  apply List.forall₂_iff_get.mpr
  have hlength := hencode.length_eq
  have hle := hbuilt.length_le
  have hpacked := hinv.packed
  refine ⟨by rw [List.length_take]; omega, ?_⟩
  intro i hi hi'
  have hblock : s.link.built[i]? = some (s.dispatched.get ⟨i, hi'⟩) := by
    obtain ⟨rest, hrest⟩ := hbuilt
    rw [← hrest, List.getElem?_append_left hi']
    exact List.getElem?_eq_getElem hi'
  have hbatch := (List.forall₂_iff_get.mp hencode).2 i (by omega) (by omega)
  have hframe := hinv.blocks i _ _ hblock (List.getElem?_eq_getElem (by omega))
  have hsize := length_built h₀.synchronised.built h _ (List.mem_of_getElem? hblock)
  rw [hframe, length_commandAddFrame] at hsize
  rw [hframe, List.get_eq_getElem, List.getElem_take, List.flatMap_def] at *
  apply calls_commandAddFrame hreturns
  · exact hcmds _ (List.getElem_mem _)
  · exact List.forall₂_map_right_iff.mpr hbatch
  · exact Nat.le_of_add_le_add_right hsize

/-- The block of a command is lost, and sent again behind a SYNC byte. -/
def lostCommand : List DispatchAction :=
  [.link (.sendBatch 0 [⟨[1, 40, 40], 0, 0, 7⟩]), .link (.build ⟨0, 0, none⟩),
    .link (.damageDown 0 []), .link .retransmit, .link (.find 9), .link (.find 8), .dispatchEnd]

theorem commands_of_run_lost : ∃ s,
    Run DispatchLink.step DispatchLink.Legal (idleDispatch 15) lostCommand s ∧
    List.Forall₂ (Calls exampleFirmware exampleTable 0) [[identifyCommand]] s.dispatched := by
  obtain ⟨s, hs, hp⟩ : ∃ s,
      Run DispatchLink.step DispatchLink.Legal (idleDispatch 15) lostCommand s ∧
      decide (s.packed = [[(0, ⟨[1, 40, 40], 0, 0, 7⟩)]] ∧ s.dispatched.length = 1) = true :=
    Run.exists_of_exec lostCommand _ (by decide +kernel)
  obtain ⟨hpacked, hlen⟩ := of_decide_eq_true hp
  have hcmds : ∀ batch ∈ [[identifyCommand]], ∀ c ∈ batch, c.FromTable exampleTable := by
    simpa using fromTable_identifyCommand
  have hcalls := commands_of_run (idle_idleDispatch 15) hs
    (fun _ _ _ _ => ⟨rfl, rfl⟩ : Returns exampleFirmware) hcmds
    (hpacked ▸ .cons (.cons (by decide +kernel) .nil) .nil) 0
  rw [hlen] at hcalls
  exact ⟨s, hs, hcalls⟩

end KlipperMcu.Commands
