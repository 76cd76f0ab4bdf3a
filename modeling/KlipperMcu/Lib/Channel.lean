import Mathlib.Data.List.Basic

/-!
# Lossy byte channels

A first-in first-out channel of bytes in which the frames of the sender are marked as long as they
are intact. A damaged frame is loose bytes. So is the rest of a frame of which the reader has
taken the start.
-/

namespace KlipperMcu.Lib

inductive Segment (τ α : Type*) where
  | frame (tag : τ) (bytes : List α)
  | loose (byte : α)

namespace Channel

variable {τ α : Type*}

def segmentBytes : Segment τ α → List α
  | .frame _ bytes => bytes
  | .loose byte => [byte]

/-- The bytes that the reader finds. -/
def bytes (c : List (Segment τ α)) : List α := c.flatMap segmentBytes

/-- The intact frames in order. -/
def frames (c : List (Segment τ α)) : List (τ × List α) :=
  c.filterMap fun
    | .frame tag bytes => some (tag, bytes)
    | .loose _ => none

/-- The reader takes `n` bytes. -/
def pop : List (Segment τ α) → Nat → List (Segment τ α)
  | [], _ => []
  | .loose byte :: c, n => if n = 0 then .loose byte :: c else pop c (n - 1)
  | .frame tag bytes :: c, n =>
    if n = 0 then .frame tag bytes :: c
    else if bytes.length ≤ n then pop c (n - bytes.length)
    else (bytes.drop n).map .loose ++ c

/-- Other bytes, or none, in place of a segment. -/
def damage (c : List (Segment τ α)) (i : Nat) (bytes : List α) : List (Segment τ α) :=
  c.take i ++ bytes.map .loose ++ c.drop (i + 1)

/-- The channel starts with an intact frame of these bytes. -/
def StartsWith (c : List (Segment τ α)) (bytes : List α) : Prop :=
  match c with
  | .frame _ bytes' :: _ => bytes' = bytes
  | _ => False

instance [DecidableEq α] (c : List (Segment τ α)) (bytes : List α) :
    Decidable (StartsWith c bytes) := by
  unfold StartsWith
  split <;> infer_instance

variable {c c' : List (Segment τ α)} {n : Nat}

lemma frames_append (c c' : List (Segment τ α)) : frames (c ++ c') = frames c ++ frames c' :=
  List.filterMap_append

lemma frames_loose (bytes : List α) : frames (bytes.map (Segment.loose : α → Segment τ α)) = [] := by
  induction bytes with
  | nil => rfl
  | cons b bytes ih => exact ih

lemma frames_frames {β : Type*} (l : List β) (tag : β → τ) (bytes : β → List α) :
    frames (l.map fun b => Segment.frame (tag b) (bytes b)) = l.map fun b => (tag b, bytes b) := by
  induction l with
  | nil => rfl
  | cons b l ih => exact congrArg _ ih

lemma pop_zero (c : List (Segment τ α)) : pop c 0 = c := by
  cases c with
  | nil => rfl
  | cons a c => cases a <;> rfl

lemma frames_pop_sublist (c : List (Segment τ α)) (n : Nat) :
    (frames (pop c n)).Sublist (frames c) := by
  induction c generalizing n with
  | nil => exact List.Sublist.refl _
  | cons a c ih =>
    cases a with
    | loose b =>
      rw [pop]
      split
      · exact List.Sublist.refl _
      · exact ih _
    | frame tag bs =>
      rw [pop]
      split
      · exact List.Sublist.refl _
      · split
        · exact (ih _).cons _
        · rw [frames_append, frames_loose]
          exact List.sublist_cons_self _ _

lemma frames_damage_sublist (c : List (Segment τ α)) (i : Nat) (bs : List α) :
    (frames (damage c i bs)).Sublist (frames c) := by
  unfold damage
  rw [frames_append, frames_append, frames_loose, List.append_nil, ← frames_append]
  refine List.Sublist.filterMap _ ?_
  calc (c.take i ++ c.drop (i + 1)).Sublist (c.take i ++ c.drop i) :=
        List.Sublist.append_left (List.drop_sublist_drop_left c (Nat.le_succ i)) _
    _ = c := List.take_append_drop i c

lemma pop_of_startsWith {bs : List α} (h : StartsWith c bs) (hpos : bs ≠ []) :
    ∃ tag, frames c = (tag, bs) :: frames (pop c bs.length) := by
  unfold StartsWith at h
  split at h
  · rename_i tag bs' c'
    subst h
    refine ⟨tag, ?_⟩
    rw [pop, if_neg (fun hz => hpos (List.length_eq_zero_iff.mp hz)), if_pos (Nat.le_refl _),
      Nat.sub_self, pop_zero]
    rfl
  · exact h.elim

end Channel

end KlipperMcu.Lib
