import Mathlib.Data.List.Basic

/-!
# Programs that read a buffer

A program over a buffer ends with a value or stops with an error, and has read some positions of
the buffer. `Reads.Sat` says which positions it may read, what holds of its value and which errors
it may stop with. The rules for it follow the shape of the program.
-/

namespace KlipperMcu.Lib

/-- The result of a program, and the positions of the buffer that it has read. -/
structure Reads (ε α : Type) where
  result : Except ε α
  reads : List Nat

namespace Reads

variable {ε α β γ : Type} {x : Reads ε α} {f : α → Reads ε β} {R : Nat → Prop} {Q : α → Prop}
  {Q' : β → Prop} {E : ε → Prop}

instance : Monad (Reads ε) where
  pure a := ⟨.ok a, []⟩
  bind x f :=
    match x.result with
    | .ok a => ⟨(f a).result, x.reads ++ (f a).reads⟩
    | .error e => ⟨.error e, x.reads⟩

def stop (e : ε) : Reads ε α := ⟨.error e, []⟩

/-- Reads position `p`, and stops with `e` when the buffer does not have it. -/
def readAt (buf : List β) (e : ε) (p : Nat) : Reads ε β where
  result :=
    match buf[p]? with
    | some b => .ok b
    | none => .error e
  reads := [p]

/-- Only positions in `R` are read, a value satisfies `Q` and an error satisfies `E`. -/
structure Sat (x : Reads ε α) (R : Nat → Prop) (Q : α → Prop) (E : ε → Prop) : Prop where
  reads : ∀ p ∈ x.reads, R p
  value : ∀ a, x.result = .ok a → Q a
  error : ∀ e, x.result = .error e → E e

lemma bind_of_ok {a : α} (h : x.result = .ok a) :
    x >>= f = ⟨(f a).result, x.reads ++ (f a).reads⟩ := by
  change (match x.result with
    | .ok a => ⟨(f a).result, x.reads ++ (f a).reads⟩
    | .error e => ⟨.error e, x.reads⟩ : Reads ε β) = _
  rw [h]

lemma bind_of_error {e : ε} (h : x.result = .error e) : x >>= f = ⟨.error e, x.reads⟩ := by
  change (match x.result with
    | .ok a => ⟨(f a).result, x.reads ++ (f a).reads⟩
    | .error e => ⟨.error e, x.reads⟩ : Reads ε β) = _
  rw [h]

lemma result_bind_of_ok {a : α} (h : x.result = .ok a) : (x >>= f).result = (f a).result := by
  rw [bind_of_ok h]

lemma result_readAt {buf : List β} {p : Nat} {b : β} (e : ε) (h : buf[p]? = some b) :
    (readAt buf e p).result = .ok b := by
  rw [readAt, h]

lemma Sat.pure {a : α} (h : Q a) : Sat (Pure.pure a : Reads ε α) R Q E where
  reads p hp := by cases hp
  value b hb := by
    cases hb
    exact h
  error e he := by cases he

lemma Sat.stop {e : ε} (h : E e) : Sat (Reads.stop e) R Q E where
  reads p hp := by cases hp
  value b hb := by cases hb
  error e' he := by
    cases he
    exact h

lemma Sat.readAt {buf : List β} {p : Nat} {e : ε} (hp : p < buf.length) (hR : R p) :
    Sat (Reads.readAt buf e p) R (fun b => buf[p]? = some b) E where
  reads q hq := by
    rw [List.mem_singleton.mp hq]
    exact hR
  value b hb := by
    rw [result_readAt e (List.getElem?_eq_getElem hp)] at hb
    cases hb
    exact List.getElem?_eq_getElem hp
  error e' he := by
    rw [result_readAt e (List.getElem?_eq_getElem hp)] at he
    cases he

lemma Sat.bind (hx : Sat x R Q E) (hf : ∀ a, Q a → Sat (f a) R Q' E) : Sat (x >>= f) R Q' E := by
  cases hr : x.result with
  | error e =>
    rw [bind_of_error hr]
    refine ⟨hx.reads, nofun, ?_⟩
    intro e' he
    cases he
    exact hx.error e hr
  | ok a =>
    have ha := hf a (hx.value a hr)
    rw [bind_of_ok hr]
    refine ⟨?_, ha.value, ha.error⟩
    intro p hp
    rcases List.mem_append.mp hp with hp | hp
    · exact hx.reads p hp
    · exact ha.reads p hp

lemma Sat.mono {Q₂ : α → Prop} {E₂ : ε → Prop} (hx : Sat x R Q E) (hQ : ∀ a, Q a → Q₂ a)
    (hE : ∀ e, E e → E₂ e) : Sat x R Q₂ E₂ :=
  ⟨hx.reads, fun a ha => hQ a (hx.value a ha), fun e he => hE e (hx.error e he)⟩

end Reads

end KlipperMcu.Lib
