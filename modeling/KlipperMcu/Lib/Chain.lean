import Mathlib.Logic.Function.Basic
import Mathlib.Data.List.Basic
import Mathlib.Data.List.Nodup
import Mathlib.Data.List.Perm.Subperm

/-!
# Singly linked lists in a pointer memory

A `next` field is a function from addresses to optional addresses, `none` being the null
pointer. `Seg next p l q` says that following `next` from `p` visits exactly the addresses
of `l` and arrives at `q`. The lemmas describe the pointer writes by which an intrusive list
is updated: insertion after a node, removal after a node, and pushing at either end.
-/

namespace KlipperMcu.Lib

variable {α : Type*}

/-- Following `next` from `p` visits `l` and arrives at `q`. -/
def Seg (next : α → Option α) : Option α → List α → Option α → Prop
  | p, [], q => p = q
  | p, a :: l, q => p = some a ∧ Seg next (next a) l q

@[simp] lemma seg_nil (next : α → Option α) (p q : Option α) : Seg next p [] q ↔ p = q := Iff.rfl

@[simp] lemma seg_cons (next : α → Option α) (p q : Option α) (a : α) (l : List α) :
    Seg next p (a :: l) q ↔ p = some a ∧ Seg next (next a) l q := Iff.rfl

lemma seg_append (next : α → Option α) (p q : Option α) (l₁ l₂ : List α) :
    Seg next p (l₁ ++ l₂) q ↔ ∃ r, Seg next p l₁ r ∧ Seg next r l₂ q := by
  induction l₁ generalizing p with
  | nil => simp
  | cons a l₁ ih => simp [ih, and_assoc]

lemma seg_congr {next next' : α → Option α} {l : List α} (h : ∀ a ∈ l, next a = next' a)
    (p q : Option α) : Seg next p l q ↔ Seg next' p l q := by
  induction l generalizing p with
  | nil => simp
  | cons a l ih =>
    rw [seg_cons, seg_cons, h a (by simp), ih (fun b hb => h b (by simp [hb]))]

lemma seg_unique {next : α → Option α} {p : Option α} {l l' : List α}
    (h : Seg next p l none) (h' : Seg next p l' none) : l = l' := by
  induction l generalizing p l' with
  | nil =>
    cases l' with
    | nil => rfl
    | cons b l' =>
      rw [seg_nil] at h
      rw [h] at h'
      exact absurd h'.1 (by simp)
  | cons a l ih =>
    cases l' with
    | nil =>
      rw [seg_nil] at h'
      rw [h'] at h
      exact absurd h.1 (by simp)
    | cons b l' =>
      have hab : a = b := Option.some.inj (h.1.symm.trans h'.1)
      subst hab
      rw [ih h.2 h'.2]

lemma seg_nodup {next : α → Option α} {p : Option α} {l : List α}
    (h : Seg next p l none) : l.Nodup := by
  induction l generalizing p with
  | nil => simp
  | cons a l ih =>
    refine List.nodup_cons.mpr ⟨?_, ih h.2⟩
    intro ha
    obtain ⟨l₁, l₂, rfl⟩ := List.append_of_mem ha
    obtain ⟨r, -, hr, hseg⟩ := (seg_append next (next a) none l₁ (a :: l₂)).mp h.2
    have he := seg_unique hseg h.2
    have hlen := congrArg List.length he
    simp at hlen
    omega

section Writes

variable [DecidableEq α]

lemma seg_update_of_notMem {next : α → Option α} {l : List α} {a : α} (ha : a ∉ l)
    (v p q : Option α) : Seg (Function.update next a v) p l q ↔ Seg next p l q := by
  apply seg_congr
  intro b hb
  have hba : b ≠ a := fun h => ha (h ▸ hb)
  exact Function.update_of_ne hba _ _

lemma seg_insert_after {next : α → Option α} {p : Option α} {l₁ l₂ : List α} {a t : α}
    (h : Seg next p (l₁ ++ a :: l₂) none) (ht : t ∉ l₁ ++ a :: l₂) :
    Seg (Function.update (Function.update next t l₂.head?) a (some t)) p
      (l₁ ++ a :: t :: l₂) none := by
  have hnd := seg_nodup h
  rw [List.nodup_append] at hnd
  have hal₁ : a ∉ l₁ := fun hm => hnd.2.2 a hm a (by simp) rfl
  have hal₂ : a ∉ l₂ := (List.nodup_cons.mp hnd.2.1).1
  simp only [List.mem_append, List.mem_cons, not_or] at ht
  obtain ⟨r, hr₁, hra, hr₂⟩ := (seg_append next p none l₁ (a :: l₂)).mp h
  have hhead : next a = l₂.head? := by
    cases l₂ with
    | nil => exact hr₂
    | cons b l₂ => exact hr₂.1
  refine (seg_append _ _ _ _ _).mpr ⟨r, ?_, hra, ?_, ?_⟩
  · rw [seg_update_of_notMem hal₁, seg_update_of_notMem ht.1]
    exact hr₁
  · simp
  · rw [Function.update_of_ne ht.2.1, Function.update_self, seg_update_of_notMem hal₂,
      seg_update_of_notMem ht.2.2, ← hhead]
    exact hr₂

lemma seg_remove_after {next : α → Option α} {p : Option α} {l₁ l₂ : List α} {a d : α}
    (h : Seg next p (l₁ ++ a :: d :: l₂) none) :
    Seg (Function.update next a (next d)) p (l₁ ++ a :: l₂) none := by
  have hnd := seg_nodup h
  rw [List.nodup_append] at hnd
  have hal₁ : a ∉ l₁ := fun hm => hnd.2.2 a hm a (by simp) rfl
  have hal₂ : a ∉ l₂ := fun hm => (List.nodup_cons.mp hnd.2.1).1 (by simp [hm])
  obtain ⟨r, hr₁, hra, hrd, hr₂⟩ := (seg_append next p none l₁ (a :: d :: l₂)).mp h
  refine (seg_append _ _ _ _ _).mpr ⟨r, ?_, hra, ?_⟩
  · rw [seg_update_of_notMem hal₁]
    exact hr₁
  · rw [Function.update_self, seg_update_of_notMem hal₂]
    exact hr₂

lemma seg_push_front {next : α → Option α} {p : Option α} {l : List α} {m : α}
    (h : Seg next p l none) (hm : m ∉ l) :
    Seg (Function.update next m p) (some m) (m :: l) none := by
  refine ⟨rfl, ?_⟩
  rw [Function.update_self, seg_update_of_notMem hm]
  exact h

lemma seg_push_back {next : α → Option α} {p : Option α} {l : List α} {z m : α}
    (h : Seg next p (l ++ [z]) none) (hm : m ∉ l ++ [z]) :
    Seg (Function.update (Function.update next m none) z (some m)) p (l ++ [z, m]) none := by
  simpa using seg_insert_after h hm

end Writes

/-- The addresses met by following `next` from `p`, at most `fuel` of them. -/
def walk (next : α → Option α) : Nat → Option α → List α
  | 0, _ => []
  | _ + 1, none => []
  | fuel + 1, some a => a :: walk next fuel (next a)

lemma walk_eq {next : α → Option α} {p : Option α} {l : List α} (h : Seg next p l none)
    {fuel : Nat} (hf : l.length ≤ fuel) : walk next fuel p = l := by
  induction l generalizing p fuel with
  | nil =>
    rw [seg_nil] at h
    subst h
    cases fuel <;> rfl
  | cons a l ih =>
    obtain ⟨rfl, hl⟩ := h
    cases fuel with
    | zero => simp at hf
    | succ fuel =>
      rw [walk, ih hl (by simpa using hf)]

lemma seg_length_le {next : α → Option α} {p : Option α} {l memory : List α}
    (h : Seg next p l none) (hsub : ∀ a ∈ l, a ∈ memory) : l.length ≤ memory.length :=
  ((seg_nodup h).subperm hsub).length_le

end KlipperMcu.Lib
