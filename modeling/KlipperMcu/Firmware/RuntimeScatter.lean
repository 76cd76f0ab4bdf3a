import KlipperMcu.Lib.BackReference

/-!
# Decompression at startup

`gd_runtime_decompress` of runtime_scatter.c, with unchecked pointers. The pointers are offsets into
the compressed stream and into the region that is initialised. A read past the stream, or of a byte
of the region that was not written, gives no result.
-/

namespace KlipperMcu.RuntimeScatter

open Lib

structure State where
  source : Nat
  destination : Nat
  /-- The bytes written so far. -/
  memory : Nat → Option UInt8

/-- `*source++`. -/
def next (stream : List UInt8) (s : State) : Option (UInt8 × State) :=
  (stream[s.source]?).map fun b => (b, { s with source := s.source + 1 })

/-- `*destination++ = b`. -/
def put (s : State) (b : UInt8) : State where
  source := s.source
  destination := s.destination + 1
  memory i := if i = s.destination then some b else s.memory i

/-- A count in the bits of the token, or in the next byte. -/
def count (stream : List UInt8) (bits : UInt32) (s : State) : Option (UInt32 × State) :=
  if bits = 0 then (next stream s).map fun r => (r.1.toUInt32, r.2) else some (bits, s)

def copyLiterals (stream : List UInt8) : Nat → State → Option State
  | 0, s => some s
  | n + 1, s => (next stream s).bind fun r => copyLiterals stream n (put r.2 r.1)

def distance (stream : List UInt8) (token : UInt32) (s : State) : Option (UInt32 × State) :=
  (next stream s).bind fun low =>
    let high := token &&& 12
    if high = 12 then
      (next stream low.2).map fun r => (low.1.toUInt32 + r.1.toUInt32 <<< (8 : UInt32), r.2)
    else some (low.1.toUInt32 + high <<< (6 : UInt32), low.2)

def copyMatch : Nat → Nat → State → Option State
  | 0, _, s => some s
  | n + 1, previous, s => (s.memory previous).bind fun b => copyMatch n (previous + 1) (put s b)

def expandMatch (stream : List UInt8) (token n : UInt32) (s : State) : Option State :=
  if n = 0 then some s
  else
    (distance stream token s).bind fun d =>
      -- `destination - distance` must be in the region.
      if d.2.destination < d.1.toNat then none
      else copyMatch (n.toNat + 2) (d.2.destination - d.1.toNat) d.2

/-- The body of the loop. -/
def expandToken (stream : List UInt8) (s : State) : Option State :=
  (next stream s).bind fun token =>
    (count stream (token.1.toUInt32 &&& 3) token.2).bind fun literals =>
      (count stream (token.1.toUInt32 >>> 4) literals.2).bind fun n =>
        -- `while (--literals)` makes `literals - 1` rounds, modulo 2 ^ 32.
        (copyLiterals stream (literals.1 - 1).toNat n.2).bind
          (expandMatch stream token.1.toUInt32 n.1)

def decompressLoop (stream : List UInt8) (size : Nat) : Nat → State → Option State
  | 0, _ => none
  | fuel + 1, s =>
    (expandToken stream s).bind fun s =>
      if s.destination < size then decompressLoop stream size fuel s else some s

/-- Every round reads a byte of the stream. -/
def gdRuntimeDecompress (stream : List UInt8) (size : Nat) : Option State :=
  decompressLoop stream size (stream.length + 1) ⟨0, 0, fun _ => none⟩

/-- The state in which the bytes `out` and no others were written. -/
def written (source : Nat) (out : List UInt8) : State where
  source := source
  destination := out.length
  memory i := out[i]?

lemma written_nil : (⟨0, 0, fun _ => none⟩ : State) = written 0 [] := by
  rw [written]
  congr 1

lemma put_written (source : Nat) (out : List UInt8) (b : UInt8) :
    put (written source out) b = written source (out ++ [b]) := by
  have hmemory : (put (written source out) b).memory = (written source (out ++ [b])).memory := by
    funext i
    change (if i = out.length then some b else out[i]?) = (out ++ [b])[i]?
    rcases Nat.lt_trichotomy i out.length with hlt | rfl | hgt
    · rw [if_neg (Nat.ne_of_lt hlt), List.getElem?_append_left hlt]
    · rw [if_pos rfl, List.getElem?_concat_length]
    · rw [if_neg (Nat.ne_of_gt hgt), List.getElem?_eq_none (Nat.le_of_lt hgt),
        List.getElem?_eq_none]
      rw [List.length_append]
      exact hgt
  have hdestination : (put (written source out) b).destination = (out ++ [b]).length := by
    rw [List.length_append, List.length_singleton]
    rfl
  exact congr (congrArg (State.mk source) hdestination) hmemory

lemma copyMatch_written {source n distance : Nat} {out : List UInt8} (hpos : 1 ≤ distance)
    (hle : distance ≤ out.length) :
    copyMatch n (out.length - distance) (written source out) =
      some (written source (copyBack distance n out)) := by
  induction n generalizing out with
  | zero => rfl
  | succ n ih =>
    obtain ⟨x, hx, hcopy⟩ := copyBack_succ (n := n) hpos hle
    have hmemory : (written source out).memory (out.length - distance) = some x := hx
    have hnext : out.length - distance + 1 = (out ++ [x]).length - distance := by
      rw [List.length_append, List.length_singleton]
      omega
    rw [copyMatch, hmemory, Option.bind_some, put_written, hnext, hcopy]
    apply ih
    rw [List.length_append]
    omega

end KlipperMcu.RuntimeScatter
