import Mathlib.Data.List.Destutter

/-!
# The colors of neopixel.py in the buffer of neopixel.c

The host sends only the bytes that differ from the colors it sent before, and those close to each
other in one message. Nothing tells it what the buffer of the board holds.
-/

namespace KlipperMcu.Neopixel

/-- The buffer, and the colors that `neopixel_send` has put on the pin. -/
structure Board where
  data : List UInt8
  shown : List (List UInt8)

inductive Message where
  | neopixelUpdate (pos : Nat) (data : List UInt8)
  | neopixelSend

/-- A command on the board, `none` for a shutdown. -/
def receive (b : Board) : Message → Option Board
  | .neopixelUpdate pos data =>
    if pos.testBit 15 ∨ b.data.length < pos + data.length then none
    else some { b with data := b.data.take pos ++ data ++ b.data.drop (pos + data.length) }
  | .neopixelSend => some { b with shown := b.shown ++ [b.data] }

/-- The positions of all changed bytes. -/
def changed (new old : List UInt8) : List Nat :=
  (List.range new.length).filter fun i => new[i]? ≠ old[i]?

/-- A round of the loop that batches changes, with the batches behind `pos`. -/
def batch (pos : Nat) : List (Nat × Nat) → List (Nat × Nat)
  | [] => [(pos, 1)]
  | (nextpos, nextcount) :: diffs =>
    if nextpos ≤ pos + 5 ∧ nextcount < 16 then (pos, nextcount + (nextpos - pos)) :: diffs
    else (pos, 1) :: (nextpos, nextcount) :: diffs

def update (new : List UInt8) (d : Nat × Nat) : Message :=
  .neopixelUpdate d.1 ((new.drop d.1).take d.2)

def sendData (new old : List UInt8) : List Message :=
  if new = old then []
  else ((changed new old).foldr batch []).map (update new) ++ [.neopixelSend]

/-- The messages for a series of colors, after `old`. -/
def messages : List UInt8 → List (List UInt8) → List Message
  | _, [] => []
  | old, new :: colors => sendData new old ++ messages new colors

/-- The batches are in the buffer, and each position is in one of them. -/
structure Batched (n : Nat) (positions : List Nat) (diffs : List (Nat × Nat)) : Prop where
  covers : ∀ p ∈ positions, ∃ d ∈ diffs, d.1 ≤ p ∧ p < d.1 + d.2
  bound : ∀ d ∈ diffs, d.1 ∈ positions ∧ d.1 + d.2 ≤ n

section SendData

variable {n pos : Nat} {positions : List Nat} {diffs : List (Nat × Nat)}
  {new old data : List UInt8} (shown : List (List UInt8))

lemma Batched.batch (h : Batched n positions diffs) (hpos : pos < n)
    (hlt : ∀ p ∈ positions, pos < p) : Batched n (pos :: positions) (batch pos diffs) := by
  obtain ⟨hcovers, hbound⟩ := h
  cases diffs with
  | nil =>
    have hnone : positions = [] := List.eq_nil_iff_forall_not_mem.mpr fun p hp => by
      simpa using hcovers p hp
    subst hnone
    constructor <;> simp [Neopixel.batch, Nat.succ_le_of_lt hpos]
  | cons d diffs =>
    obtain ⟨nextpos, nextcount⟩ := d
    have hnext := hlt nextpos (hbound _ List.mem_cons_self).1
    simp only [List.exists_mem_cons_iff, List.forall_mem_cons] at hcovers hbound
    have hrest : ∀ d ∈ diffs, d.1 ∈ pos :: positions ∧ d.1 + d.2 ≤ n := fun d hd =>
      (hbound.2 d hd).imp_left (List.mem_cons_of_mem _)
    rw [Neopixel.batch]
    split <;> constructor <;> simp only [List.exists_mem_cons_iff, List.forall_mem_cons]
    · refine ⟨?_, fun p hp => (hcovers p hp).imp_left ?_⟩ <;> omega
    · exact ⟨⟨List.mem_cons_self, by omega⟩, hrest⟩
    · exact ⟨Or.inl ⟨Nat.le_refl _, Nat.lt_succ_self _⟩, fun p hp => Or.inr (hcovers p hp)⟩
    · exact ⟨⟨List.mem_cons_self, hpos⟩, hbound.1.imp_left (List.mem_cons_of_mem _), hrest⟩

lemma batched_foldr (hsorted : positions.Pairwise (· < ·)) (hn : ∀ p ∈ positions, p < n) :
    Batched n positions (positions.foldr batch []) := by
  induction hsorted with
  | nil => constructor <;> simp
  | cons hlt _ ih =>
    obtain ⟨hpos, hn⟩ := List.forall_mem_cons.mp hn
    exact (ih hn).batch hpos hlt

lemma batched_changed (new old : List UInt8) :
    Batched new.length (changed new old) ((changed new old).foldr batch []) := by
  apply batched_foldr
  · exact List.pairwise_lt_range.filter _
  · intro p hp
    exact List.mem_range.mp (List.mem_of_mem_filter hp)

lemma receive_update (hdata : data.length = new.length) (hnew : new.length ≤ 500) {d : Nat × Nat}
    (hd : d.1 + d.2 ≤ new.length) : ∃ data',
      receive ⟨data, shown⟩ (update new d) = some ⟨data', shown⟩ ∧ data'.length = new.length ∧
      ∀ j : Nat, data'[j]? = if d.1 ≤ j ∧ j < d.1 + d.2 then new[j]? else data[j]? := by
  have hcount : ((new.drop d.1).take d.2).length = d.2 := by
    simp
    omega
  have hin : ¬ (d.1.testBit 15 ∨ data.length < d.1 + ((new.drop d.1).take d.2).length) := by
    rw [Nat.testBit_lt_two_pow (by omega), hcount]
    simp [hdata, hd]
  refine ⟨_, if_neg hin, ?_, fun j => ?_⟩
  · simp [hcount]
    omega
  · simp only [hcount, List.getElem?_append, List.length_append, List.length_take,
      List.getElem?_take, List.getElem?_drop]
    grind

lemma foldlM_update (hnew : new.length ≤ 500) (hd : ∀ d ∈ diffs, d.1 + d.2 ≤ new.length)
    (hdata : data.length = new.length) : ∃ data',
      (diffs.map (update new)).foldlM receive ⟨data, shown⟩ = some ⟨data', shown⟩ ∧
      ∀ j : Nat, data[j]? = new[j]? ∨ (∃ d ∈ diffs, d.1 ≤ j ∧ j < d.1 + d.2) →
        data'[j]? = new[j]? := by
  induction diffs generalizing data with
  | nil => exact ⟨data, rfl, by simp⟩
  | cons d diffs ih =>
    rw [List.forall_mem_cons] at hd
    obtain ⟨data₁, hreceive, hdata₁, hget⟩ := receive_update shown hdata hnew hd.1
    obtain ⟨data₂, hrest, hget₂⟩ := ih hd.2 hdata₁
    refine ⟨data₂, ?_, fun j hj => hget₂ j ?_⟩
    · rw [List.map_cons, List.foldlM_cons, hreceive]
      exact hrest
    · grind

lemma foldlM_sendData (hnew : new.length ≤ 500) (hlen : new.length = old.length)
    (hdata : data.length = new.length) (hold : ∀ j : Nat, old[j]? = new[j]? → data[j]? = new[j]?) :
    (sendData new old).foldlM receive ⟨data, shown⟩ =
      some ⟨new, if new = old then shown else shown ++ [new]⟩ := by
  rw [sendData]
  split
  · rename_i heq
    have hsame : data = new := List.ext_getElem? fun j => hold j (by rw [heq])
    rw [hsame]
    rfl
  · have hbatched := batched_changed new old
    obtain ⟨data', hfold, hget⟩ := foldlM_update shown hnew
      (fun d hd => (hbatched.bound d hd).2) hdata
    have heq : data' = new := by
      apply List.ext_getElem?
      intro j
      apply hget j
      by_cases hj : old[j]? = new[j]?
      · exact Or.inl (hold j hj)
      · exact Or.inr (hbatched.covers j (by grind [changed]))
    rw [List.foldlM_append, hfold, heq]
    rfl

lemma foldlM_messages (hold : old.length ≤ 500) {colors : List (List UInt8)}
    (hcolors : ∀ new ∈ colors, new.length = old.length) :
    (messages old colors).foldlM receive ⟨old, shown ++ [old]⟩ =
      some ⟨colors.getLastD old, shown ++ colors.destutter' (· ≠ ·) old⟩ := by
  induction colors generalizing old shown with
  | nil => rfl
  | cons new colors ih =>
    obtain ⟨hlen, hcolors⟩ := List.forall_mem_cons.mp hcolors
    rw [messages, List.foldlM_append, foldlM_sendData _ (by omega) hlen hlen.symm fun _ hj => hj]
    change (messages new colors).foldlM receive _ = _
    rw [List.getLastD_cons, List.destutter'_cons]
    by_cases hnew : new = old
    · subst hnew
      simpa using ih shown hold hcolors
    · rw [if_neg hnew, ih _ (by omega) fun c hc => (hcolors c hc).trans hlen.symm]
      simp [Ne.symm hnew]

end SendData

/-- The board is sent colors from `klippy:connect` on, when the host takes all bytes as changed,
whatever its buffer holds. No message is an error. The buffer gets the last colors, and the pin all
of them in order, without repetitions. -/
theorem foldlM_connect (data color : List UInt8) (colors : List (List UInt8))
    (hdata : data.length = color.length) (hpos : 0 < color.length) (hsize : color.length ≤ 500)
    (hcolors : ∀ new ∈ colors, new.length = color.length) :
    (messages (color.map (· ^^^ 1)) (color :: colors)).foldlM receive ⟨data, []⟩ =
      some ⟨colors.getLastD color, (color :: colors).destutter (· ≠ ·)⟩ := by
  have hchanged : ∀ j : Nat, (color.map (· ^^^ 1))[j]? = color[j]? → color.length ≤ j := by
    intro j hj
    by_contra hlt
    rw [Nat.not_le] at hlt
    simp only [List.getElem?_map, List.getElem?_eq_getElem hlt, Option.map_some,
      Option.some.injEq] at hj
    exact absurd ((UInt8.xor_right_inj _).mp (hj.trans UInt8.xor_zero.symm)) (by decide)
  have hne : color ≠ color.map (· ^^^ 1) := fun heq =>
    Nat.not_le.mpr hpos (hchanged 0 (congrArg (·[0]?) heq.symm))
  rw [messages, List.foldlM_append, foldlM_sendData _ hsize (by simp) hdata, if_neg hne]
  · exact foldlM_messages [] hsize hcolors
  · intro j hj
    have hle := hchanged j hj
    rw [List.getElem?_eq_none hle, List.getElem?_eq_none (hdata.trans_le hle)]

/-- Two leds, the second of them changed twice. -/
theorem foldlM_connect_twoLeds :
    (messages [0, 3, 2, 5, 4, 7]
        [[1, 2, 3, 4, 5, 6], [1, 2, 3, 4, 0, 6], [1, 2, 3, 0, 0, 0]]).foldlM receive
        ⟨[9, 2, 0, 0, 0, 0], []⟩ =
      some ⟨[1, 2, 3, 0, 0, 0], [[1, 2, 3, 4, 5, 6], [1, 2, 3, 4, 0, 6], [1, 2, 3, 0, 0, 0]]⟩ :=
  foldlM_connect [9, 2, 0, 0, 0, 0] [1, 2, 3, 4, 5, 6] [[1, 2, 3, 4, 0, 6], [1, 2, 3, 0, 0, 0]] rfl
    (by decide) (by decide) (by decide)

end KlipperMcu.Neopixel
