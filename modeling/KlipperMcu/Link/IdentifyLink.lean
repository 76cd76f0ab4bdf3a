import KlipperMcu.Lib.Run
import Mathlib.Data.List.Basic
import Mathlib.Algebra.Ring.Nat

/-!
# Transfer of the data dictionary

serialhdl.py asks for the data dictionary in parts. A request is answered by `command_identify`, but
the host may be handed the response to any request, such as one that was sent again or comes from
the time before it connected, or no response at all.
-/

namespace KlipperMcu.Identify

open Lib

structure Response where
  offset : UInt32
  data : List UInt8
deriving DecidableEq, Repr

def commandIdentify (identifyData : List UInt8) (offset : UInt32) (count : UInt8) : Response :=
  let isize := UInt32.ofNat identifyData.length
  let count :=
    if offset ≥ isize then 0
    else if offset + count.toUInt32 > isize then (isize - offset).toUInt8
    else count
  ⟨offset, (identifyData.drop offset.toNat).take count.toNat⟩

/-- The variables of `_get_identify_data` and of the `SerialRetryCommand` it waits for. -/
structure Transfer where
  identifyData : List UInt8 := []
  lastParams : Option Response := none
  retries : Nat := 5
  /-- What `_get_identify_data` has returned, which is `None` after an error. -/
  result : Option (Option (List UInt8)) := none
deriving DecidableEq, Repr

/-- The offset and the count that the host asks for. -/
def request (t : Transfer) : UInt32 × UInt8 := (UInt32.ofNat t.identifyData.length, 40)

/-- The body of the loop once a response is there. The next request is sent after it. -/
def handleResponse (t : Transfer) (params : Response) : Transfer :=
  if params.offset.toNat = t.identifyData.length then
    if params.data = [] then { t with result := some (some t.identifyData) }
    else { identifyData := t.identifyData ++ params.data }
  else { identifyData := t.identifyData }

inductive Action where
  /-- The response to the request of the host gets to it. -/
  | answer
  /-- The response to some other request gets to the host. -/
  | response (offset : UInt32) (count : UInt8)
  /-- The request of the host is acknowledged. -/
  | ack
deriving DecidableEq, Repr

def step (dictionary : List UInt8) (t : Transfer) : Action → Option Transfer
  | .answer =>
    some { t with
      lastParams := some (commandIdentify dictionary (request t).1 (request t).2) }
  | .response offset count =>
    some { t with lastParams := some (commandIdentify dictionary offset count) }
  | .ack =>
    match t.lastParams with
    | some params => some (handleResponse t params)
    | none =>
      if t.retries = 0 then some { t with result := some none }
      else some { t with retries := t.retries - 1 }

/-- The loop has not returned, and all requests are for some data. -/
def Legal (t : Transfer) : Action → Prop
  | .answer => t.result = none
  | .response _ count => t.result = none ∧ count ≠ 0
  | .ack => t.result = none

instance (t : Transfer) (a : Action) : Decidable (Legal t a) :=
  match a with
  | .answer => inferInstanceAs (Decidable (_ = _))
  | .response _ _ => inferInstanceAs (Decidable (_ ∧ _))
  | .ack => inferInstanceAs (Decidable (_ = _))

/-- A response has what the dictionary has at its offset, and is empty at the end only. -/
structure Response.Valid (dictionary : List UInt8) (r : Response) : Prop where
  data : r.data <+: dictionary.drop r.offset.toNat
  eq_nil : r.data = [] → dictionary.length ≤ r.offset.toNat

structure Inv (dictionary : List UInt8) (t : Transfer) : Prop where
  identifyData : t.identifyData <+: dictionary
  lastParams : ∀ params ∈ t.lastParams, params.Valid dictionary
  result : ∀ data, t.result = some (some data) → data = dictionary

section Steps

variable {dictionary : List UInt8} {t t' : Transfer} {a : Action} {offset : UInt32} {count : UInt8}

/-- The bytes that are sent. The size of a dictionary does not get near to the end of a word. -/
lemma data_commandIdentify (hsize : dictionary.length < 2 ^ 31) (offset : UInt32) (count : UInt8) :
    (commandIdentify dictionary offset count).data =
      (dictionary.drop offset.toNat).take count.toNat := by
  have hisize : (UInt32.ofNat dictionary.length).toNat = dictionary.length := by
    rw [UInt32.toNat_ofNat', Nat.mod_eq_of_lt (by omega)]
  have hcount := count.toNat_lt
  have hsum : offset.toNat < dictionary.length →
      (offset + count.toUInt32).toNat = offset.toNat + count.toNat := by
    intro hlt
    rw [UInt32.toNat_add, UInt8.toNat_toUInt32, Nat.mod_eq_of_lt (by omega)]
  unfold commandIdentify
  dsimp only
  rw [List.take_eq_take_iff, List.length_drop]
  simp only [ge_iff_le, gt_iff_lt, UInt32.le_iff_toNat_le, UInt32.lt_iff_toNat_lt, hisize]
  split_ifs with hend hlong
  · change min 0 _ = _
    omega
  · rw [hsum (by omega)] at hlong
    rw [UInt32.toNat_toUInt8, UInt32.toNat_sub_of_le _ _ (UInt32.le_iff_toNat_le.mpr (by omega)),
      hisize]
    omega
  · rfl

lemma valid_commandIdentify (hsize : dictionary.length < 2 ^ 31) (offset : UInt32)
    (hcount : count ≠ 0) : (commandIdentify dictionary offset count).Valid dictionary := by
  have hdata := data_commandIdentify hsize offset count
  have hpos : count.toNat ≠ 0 := fun h => hcount (UInt8.toNat_inj.mp h)
  constructor
  · rw [hdata]
    exact List.take_prefix _ _
  · intro hnil
    rw [hdata, List.take_eq_nil_iff] at hnil
    exact List.drop_eq_nil_iff.mp (hnil.resolve_left hpos)

lemma Inv.handleResponse (h : Inv dictionary t) {params : Response} (hp : params.Valid dictionary) :
    Inv dictionary (handleResponse t params) := by
  unfold Identify.handleResponse
  split
  · rename_i hoffset
    obtain ⟨rest, hrest⟩ := h.identifyData
    split
    · rename_i hnil
      have hend := hp.eq_nil hnil
      refine ⟨h.identifyData, h.lastParams, ?_⟩
      rintro data ⟨rfl⟩
      exact h.identifyData.eq_of_length_le (hoffset ▸ hend)
    · have hdata := hp.data
      rw [hoffset, ← hrest, List.drop_left] at hdata
      rw [← hrest]
      exact ⟨(List.prefix_append_right_inj _).mpr hdata, nofun, nofun⟩
  · exact ⟨h.identifyData, nofun, nofun⟩

lemma Inv.step (hsize : dictionary.length < 2 ^ 31) (h : Inv dictionary t) (hlegal : Legal t a)
    (hstep : step dictionary t a = some t') : Inv dictionary t' := by
  cases a with
  | answer =>
    cases hstep
    refine { h with lastParams := ?_ }
    rintro params ⟨rfl⟩
    exact valid_commandIdentify hsize _ (by decide : (40 : UInt8) ≠ 0)
  | response offset count =>
    cases hstep
    refine { h with lastParams := ?_ }
    rintro params ⟨rfl⟩
    exact valid_commandIdentify hsize offset hlegal.2
  | ack =>
    unfold Identify.step at hstep
    dsimp only at hstep
    split at hstep
    · rename_i params hparams
      cases hstep
      exact h.handleResponse (h.lastParams params hparams)
    · split at hstep
      · cases hstep
        exact { h with result := nofun }
      · cases hstep
        exact ⟨h.identifyData, h.lastParams, h.result⟩

/-- Requests that are answered and acknowledged. -/
def answered (requests : Nat) : List Action := (List.replicate requests [.answer, .ack]).flatten

lemma Inv.answer_ack (hsize : dictionary.length < 2 ^ 31) (h : Inv dictionary t)
    (hresult : t.result = none) : ∃ t', Run (Identify.step dictionary) Legal t [.answer, .ack] t' ∧
      Inv dictionary t' ∧
      if dictionary.length - t.identifyData.length = 0 then t'.result = some (some dictionary)
      else t'.result = none ∧ t'.identifyData.length =
        t.identifyData.length + min 40 (dictionary.length - t.identifyData.length) := by
  have hle := h.identifyData.length_le
  have hlength : (request t).1.toNat = t.identifyData.length := by
    rw [request, UInt32.toNat_ofNat', Nat.mod_eq_of_lt (by omega)]
  have hcount : (request t).2.toNat = 40 := rfl
  have hdata := data_commandIdentify hsize (request t).1 (request t).2
  let t₁ := { t with lastParams := some (commandIdentify dictionary (request t).1 (request t).2) }
  have hanswer : Legal t .answer := hresult
  have hack : Legal t₁ .ack := hresult
  have hrun : Run (Identify.step dictionary) Legal t [.answer, .ack] (Identify.handleResponse t₁ _) :=
    (Run.nil.snoc hanswer rfl).snoc hack rfl
  have hinv : Inv dictionary (Identify.handleResponse t₁ _) :=
    (h.step hsize hanswer rfl).step hsize hack rfl
  refine ⟨_, hrun, hinv, ?_⟩
  unfold Identify.handleResponse at hinv ⊢
  rw [if_pos (show (commandIdentify dictionary (request t).1 _).offset.toNat = _ from hlength)]
    at hinv ⊢
  have hlen : (commandIdentify dictionary (request t).1 (request t).2).data.length =
      min 40 (dictionary.length - t.identifyData.length) := by
    rw [hdata, List.length_take, List.length_drop, hlength, hcount]
  split_ifs at hinv ⊢ with hend hnil hnil
  · rw [hinv.result _ rfl]
  · rw [hend] at hlen
    exact absurd (List.length_eq_zero_iff.mp hlen) hnil
  · rw [hnil, List.length_nil] at hlen
    omega
  · exact ⟨rfl, by rw [List.length_append, hlen]⟩

lemma Inv.finishes (hsize : dictionary.length < 2 ^ 31) (h : Inv dictionary t)
    (hresult : t.result = none) : ∃ t', Run (Identify.step dictionary) Legal t
      (answered ((dictionary.length - t.identifyData.length + 39) / 40 + 1)) t' ∧
      t'.result = some (some dictionary) := by
  induction hleft : dictionary.length - t.identifyData.length using Nat.strong_induction_on
    generalizing t with
  | _ left ih =>
    obtain ⟨t₁, hrun, hinv, hdone⟩ := h.answer_ack hsize hresult
    rw [hleft] at hdone
    split_ifs at hdone with hend
    · subst hend
      exact ⟨t₁, hrun, hdone⟩
    · obtain ⟨t', hrest, hdone'⟩ := ih _ (by omega) hinv hdone.1 rfl
      refine ⟨t', ?_, hdone'⟩
      have hcount : (left + 39) / 40 + 1 =
          (dictionary.length - t₁.identifyData.length + 39) / 40 + 1 + 1 := by omega
      rw [hcount]
      exact hrun.append hrest

end Steps

/-- Whatever responses the host is handed, what it has is the beginning of the dictionary, and what
it returns is the dictionary or an error. Until then it gets the rest when its requests are answered,
40 bytes with each and an empty response in the end. -/
theorem run_identify {dictionary : List UInt8} (hsize : dictionary.length < 2 ^ 31)
    {actions : List Action} {t : Transfer} (h : Run (step dictionary) Legal {} actions t) :
    t.identifyData <+: dictionary ∧ (∀ data, t.result = some (some data) → data = dictionary) ∧
    (t.result = none → ∃ t', Run (step dictionary) Legal t
      (answered ((dictionary.length - t.identifyData.length + 39) / 40 + 1)) t' ∧
      t'.result = some (some dictionary)) := by
  have hinv : Inv dictionary t :=
    h.invariant ⟨List.nil_prefix, nofun, nofun⟩ fun _ _ _ hs => hs.step hsize
  exact ⟨hinv.identifyData, hinv.result, hinv.finishes hsize⟩

/-- One response comes twice, one is old, and one is lost. -/
def staleResponses : List Action :=
  [.answer, .ack, .response 0 40, .ack, .response 48 40, .ack, .ack, .answer, .ack, .answer, .ack]

theorem run_identify_stale : ∃ t, Run (step (List.replicate 50 7)) Legal {} staleResponses t ∧
    t.result.isSome = true ∧ ∀ data, t.result = some (some data) → data = List.replicate 50 7 := by
  have hexec : ∃ t, Run (step (List.replicate 50 7)) Legal {} staleResponses t ∧
      t.result.isSome = true := Run.exists_of_exec _ _ (by decide +kernel)
  obtain ⟨t, hrun, hresult⟩ := hexec
  exact ⟨t, hrun, hresult, (run_identify (by decide) hrun).2.1⟩

end KlipperMcu.Identify
