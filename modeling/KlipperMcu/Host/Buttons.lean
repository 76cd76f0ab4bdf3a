import KlipperMcu.Firmware.Buttons
import Mathlib.Data.Nat.Bitwise

/-!
# Buttons on the host

`MCU_buttons.handle_buttons_state`. The host counts the reports it has processed and takes from each
message those that it has not seen.
-/

namespace KlipperMcu.Input

/-- The host's side of one object, with the reports in the order in which they were processed and the
callbacks that were invoked. -/
structure McuButtons (κ : Type) where
  invert : Nat
  lastButton : Nat
  ackCount : Int
  callbacks : List (Nat × Nat × κ)
  processed : List UInt8
  invoked : List (κ × Nat)

/-- Expands the `ack_count` of a message from 8 bits. -/
def expandAckCount (ackCount : Int) (msgAckCount : UInt8) : Int :=
  let ackDiff := ((msgAckCount.toNat - ackCount) % 2 ^ 8).toNat
  ackCount + (ackDiff - ((ackDiff &&& 0x80) <<< 1 : Nat))

/-- The callbacks for one report. -/
def processButton {κ : Type} (h : McuButtons κ) (button : UInt8) : McuButtons κ :=
  let state := button.toNat ^^^ h.invert
  let changed := state ^^^ h.lastButton
  { h with
    lastButton := state
    processed := h.processed ++ [button]
    invoked := h.invoked ++ h.callbacks.filterMap fun (mask, shift, callback) =>
      if changed &&& mask ≠ 0 then some (callback, (state &&& mask) >>> shift) else none }

/-- `handle_buttons_state`, with the count of the `buttons_ack` it sends. -/
def handleButtonsState {κ : Type} (h : McuButtons κ) (msg : ButtonsState) :
    McuButtons κ × Option Nat :=
  let newCount := expandAckCount h.ackCount msg.ackCount + msg.state.length - h.ackCount
  if newCount ≤ 0 then (h, none)
  else
    let newButtons := msg.state.drop (msg.state.length - newCount.toNat)
    (newButtons.foldl processButton { h with ackCount := h.ackCount + newCount }, some newCount.toNat)

section Handle

variable {κ : Type} {h : McuButtons κ} {msg : ButtonsState} {start seen : Nat}

lemma signBit_eq : ∀ d : Fin 256, (d.val &&& 0x80) <<< 1 = if d.val < 128 then 0 else 256 := by
  decide +kernel

lemma expandAckCount_eq (hle : start ≤ seen) (hnear : seen ≤ start + 128) :
    expandAckCount seen (UInt8.ofNat start) = start := by
  unfold expandAckCount
  rw [UInt8.toNat_ofNat']
  dsimp only
  generalize hd : ((((start % 2 ^ 8 : Nat) : Int) - seen) % 2 ^ 8).toNat = d
  have hlt : d < 256 := by omega
  rw [signBit_eq ⟨d, hlt⟩]
  dsimp only
  split <;> omega

lemma foldl_processButton (buttons : List UInt8) (h : McuButtons κ) :
    (buttons.foldl processButton h).processed = h.processed ++ buttons ∧
      (buttons.foldl processButton h).ackCount = h.ackCount := by
  induction buttons generalizing h with
  | nil => exact ⟨(List.append_nil _).symm, rfl⟩
  | cons button buttons ih =>
    obtain ⟨hp, ha⟩ := ih (processButton h button)
    rw [List.foldl_cons, hp, ha]
    exact ⟨List.append_assoc _ _ _, rfl⟩

/-- A message with the reports from `start` on, of which the host has processed those in front of
`seen`. -/
lemma handleButtonsState_eq (hcount : h.ackCount = seen) (hmsg : msg.ackCount = UInt8.ofNat start)
    (hle : start ≤ seen) (hnear : seen ≤ start + 128) (hend : seen ≤ start + msg.state.length) :
    let r := handleButtonsState h msg
    r.1.processed = h.processed ++ msg.state.drop (seen - start) ∧
      r.1.ackCount = (start + msg.state.length : Nat) ∧
      r.2.toList.sum = start + msg.state.length - seen := by
  have hnew : expandAckCount h.ackCount msg.ackCount + msg.state.length - h.ackCount =
      (start + msg.state.length - seen : Nat) := by
    rw [hcount, hmsg, expandAckCount_eq hle hnear]
    omega
  unfold handleButtonsState
  rw [hnew]
  dsimp only
  split
  · rename_i hnone
    have heq : seen - start = msg.state.length := by omega
    rw [heq, List.drop_length, List.append_nil, hcount]
    exact ⟨rfl, by omega, by simp only [Option.toList_none, List.sum_nil]; omega⟩
  · have hdrop : msg.state.length - (start + msg.state.length - seen) = seen - start := by omega
    obtain ⟨hp, ha⟩ := foldl_processButton (msg.state.drop (seen - start))
      { h with ackCount := h.ackCount + (start + msg.state.length - seen : Nat) }
    rw [Int.toNat_natCast, hdrop, hp, ha]
    refine ⟨rfl, ?_, Nat.add_zero _⟩
    dsimp only
    omega

end Handle

end KlipperMcu.Input
