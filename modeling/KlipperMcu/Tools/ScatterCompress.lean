import KlipperMcu.Tools.ScatterTree

/-!
# The scatter compressor

`compress` of gd_scatter_compress.py. A match may be put off by one literal if the next position has
a longer one. Whatever the dictionary and the parser, the result is a stream in the format that
expands to the data.
-/

namespace KlipperMcu.Scatter

open Lib

/-- `HYPOTHESES`. -/
inductive Hypothesis where
  | greedyNearest
  | lazyNearest
  | lazyOldest
  | lazyBst
  | lazyLex257
  | lazyFullsuffix
  | lazyLex128
deriving DecidableEq, Repr

/-- The matches of a hypothesis, as the function `best`. -/
def dictionary (data : List UInt8) :
    Hypothesis → Except Error (Nat → Except Error Candidate)
  | .lazyBst => (binaryTreeMatches data).map fun table p => .ok (tableBest table p)
  | .lazyLex257 =>
    (lexicographicMatches data (some 257) false maxDistance).map fun table p =>
      .ok (tableBest table p)
  | .lazyFullsuffix =>
    (lexicographicMatches data none false maxDistance).map fun table p => .ok (tableBest table p)
  | .lazyLex128 =>
    (lexicographicMatches data (some 128) true maxDistance).map fun table p =>
      .ok (tableBest table p)
  | .lazyOldest => .ok fun p => Matches.best data p true
  | .lazyNearest => .ok fun p => Matches.best data p false
  | .greedyNearest => .ok fun p => Matches.best data p false

/-- The length to use at a position: a literal is spent if the next match is longer by two. -/
def chosenLength (best : Nat → Except Error Candidate) (isLazy : Bool) (position length : Nat) :
    Except Error Nat :=
  if length ≠ 0 ∧ isLazy then
    (best (position + 1)).map fun c => if length + 1 < c.length then 0 else length
  else .ok length

def compressLoop (data : List UInt8) (best : Nat → Except Error Candidate) (isLazy : Bool) :
    Nat → Nat → List UInt8 → List UInt8 → Except Error (List UInt8)
  | 0, _, _, _ => .error .endless
  | fuel + 1, position, literals, result =>
    if position < data.length then
      (best position).bind fun c =>
        (chosenLength best isLazy position c.length).bind fun length =>
          if length ≠ 0 then
            (encodeToken literals length c.distance).bind fun bytes =>
              compressLoop data best isLazy fuel (position + length) [] (result ++ bytes)
          else
            (getItem data position).bind fun b =>
              if (literals ++ [b]).length = maxLiterals then
                (encodeToken (literals ++ [b]) 0 0).bind fun bytes =>
                  compressLoop data best isLazy fuel (position + 1) [] (result ++ bytes)
              else compressLoop data best isLazy fuel (position + 1) (literals ++ [b]) result
    else if literals ≠ [] then (encodeToken literals 0 0).map fun bytes => result ++ bytes
    else .ok result

/-- Every round goes on by a byte. -/
def compress (data : List UInt8) (hypothesis : Hypothesis) : Except Error (List UInt8) :=
  (dictionary data hypothesis).bind fun best =>
    compressLoop data best (decide (hypothesis ≠ .greedyNearest)) (data.length + 1) 0 [] []

section Compress

variable {data : List UInt8} {best : Nat → Except Error Candidate}

lemma sound_tableBest {n : Nat} {table : List Candidate} (h : Table data n table) (position : Nat) :
    Sound data position (.ok (tableBest table position)) :=
  ⟨_, rfl, h.sound position⟩

lemma dictionary_sound (data : List UInt8) (hypothesis : Hypothesis) :
    ∃ best, dictionary data hypothesis = .ok best ∧
      ∀ position, Sound data position (best position) := by
  have hlex (keyLimit : Option Nat) (unique : Bool) :
      ∃ table, lexicographicMatches data keyLimit unique maxDistance = .ok table ∧
        Table data data.length table :=
    lexicographicMatches_table data keyLimit unique (Nat.le_refl maxDistance)
  cases hypothesis with
  | greedyNearest => exact ⟨_, rfl, fun position => Matches.best_sound data position false⟩
  | lazyNearest => exact ⟨_, rfl, fun position => Matches.best_sound data position false⟩
  | lazyOldest => exact ⟨_, rfl, fun position => Matches.best_sound data position true⟩
  | lazyBst =>
    obtain ⟨table, htable, hvalid⟩ := binaryTreeMatches_table data
    rw [dictionary, htable]
    exact ⟨_, rfl, sound_tableBest hvalid⟩
  | lazyLex257 =>
    obtain ⟨table, htable, hvalid⟩ := hlex (some 257) false
    rw [dictionary, htable]
    exact ⟨_, rfl, sound_tableBest hvalid⟩
  | lazyFullsuffix =>
    obtain ⟨table, htable, hvalid⟩ := hlex none false
    rw [dictionary, htable]
    exact ⟨_, rfl, sound_tableBest hvalid⟩
  | lazyLex128 =>
    obtain ⟨table, htable, hvalid⟩ := hlex (some 128) true
    rw [dictionary, htable]
    exact ⟨_, rfl, sound_tableBest hvalid⟩

lemma chosenLength_spec (hbest : ∀ position, Sound data position (best position)) (isLazy : Bool)
    (position length : Nat) :
    ∃ n, chosenLength best isLazy position length = .ok n ∧ (n = 0 ∨ n = length) := by
  unfold chosenLength
  by_cases htest : length ≠ 0 ∧ isLazy = true
  · obtain ⟨c, hc, -⟩ := hbest (position + 1)
    rw [if_pos htest, hc]
    refine ⟨_, rfl, ?_⟩
    dsimp only
    split_ifs
    · exact Or.inl rfl
    · exact Or.inr rfl
  · rw [if_neg htest]
    exact ⟨length, rfl, Or.inr rfl⟩

lemma stream_of_literals {position : Nat} {out literals bytes rest : List UInt8}
    (hsplit : data.take position = out ++ literals) (hne : literals ≠ [])
    (henc : Encoded ⟨literals, 0, 0⟩ bytes)
    (hstream : Stream data.length rest (data.take position) data) :
    Stream data.length (bytes ++ rest) out data := by
  have hlength : out.length + literals.length ≤ data.length := by
    rw [← List.length_append, ← hsplit]
    exact List.length_take_le' position data
  have hpos : 0 < literals.length := List.length_pos_iff.mpr hne
  have hexpand : Item.expand ⟨literals, 0, 0⟩ out = data.take position := hsplit.symm
  apply Stream.item (by omega) henc
  · exact fun hzero => absurd rfl hzero
  · rw [hexpand]
    exact List.length_take_le' position data
  · rw [hexpand]
    exact hstream

lemma stream_of_match {position length distance : Nat} {out literals bytes rest : List UInt8}
    (hsplit : data.take position = out ++ literals) (hposition : position < data.length)
    (hrepeats : Repeats data position length distance)
    (henc : Encoded ⟨literals, length, distance⟩ bytes)
    (hstream : Stream data.length rest (data.take (position + length)) data) :
    Stream data.length (bytes ++ rest) out data := by
  have htake : (data.take position).length = position := by
    rw [List.length_take]
    omega
  have hlength : out.length + literals.length = position := by
    rw [← List.length_append, ← hsplit, htake]
  have hexpand : Item.expand ⟨literals, length, distance⟩ out = data.take (position + length) := by
    rw [Item.expand, ← hsplit]
    exact hrepeats.copyBack
  apply Stream.item (by omega) henc
  · intro _
    exact ⟨hrepeats.pos, by rw [hlength]; exact hrepeats.le⟩
  · rw [hexpand]
    exact List.length_take_le' _ data
  · rw [hexpand]
    exact hstream

lemma rest_spec {out literals : List UInt8} (hsplit : data.take data.length = out ++ literals)
    (hliterals : literals.length < maxLiterals) (result : List UInt8) :
    ∃ bytes, (if literals ≠ [] then (encodeToken literals 0 0).map fun bytes => result ++ bytes
        else .ok result) = .ok (result ++ bytes) ∧ Stream data.length bytes out data := by
  have hall : data.take data.length = data := List.take_length
  have hdone : Stream data.length [] (data.take data.length) data := by
    rw [hall]
    exact Stream.done rfl
  split_ifs with hliteral
  · obtain ⟨bytes, hbytes, henc⟩ := encodeToken_spec (Nat.le_of_lt hliterals) (Or.inl ⟨rfl, rfl⟩)
    rw [hbytes]
    refine ⟨bytes, rfl, ?_⟩
    rw [← List.append_nil bytes]
    exact stream_of_literals hsplit hliteral henc hdone
  · refine ⟨[], ?_, ?_⟩
    · rw [List.append_nil]
    · rw [not_not.mp hliteral, List.append_nil] at hsplit
      rw [← hsplit]
      exact hdone

lemma compressLoop_spec (hbest : ∀ position, Sound data position (best position)) (isLazy : Bool)
    {fuel position : Nat} {out literals result : List UInt8} (hfuel : data.length < position + fuel)
    (hle : position ≤ data.length) (hsplit : data.take position = out ++ literals)
    (hliterals : literals.length < maxLiterals) :
    ∃ bytes, compressLoop data best isLazy fuel position literals result = .ok (result ++ bytes) ∧
      Stream data.length bytes out data := by
  induction fuel generalizing position out literals result with
  | zero => omega
  | succ fuel ih =>
    -- After a token the literals are empty and all up to the position is out.
    have hflush (next : Nat) (bytes : List UInt8) (hlt : position < next)
        (hnext : next ≤ data.length) :
        ∃ rest, compressLoop data best isLazy fuel next [] (result ++ bytes) =
            .ok (result ++ bytes ++ rest) ∧
          Stream data.length rest (data.take next) data :=
      ih (by omega) hnext (List.append_nil _).symm (by decide)
    rw [compressLoop]
    by_cases hmore : position < data.length
    · rw [if_pos hmore]
      obtain ⟨c, hc, hvalid⟩ := hbest position
      obtain ⟨n, hn, hchosen⟩ := chosenLength_spec hbest isLazy position c.length
      rw [hc]
      change ∃ bytes, (chosenLength best isLazy position c.length).bind _ = _ ∧ _
      rw [hn]
      change ∃ bytes, (if n ≠ 0 then _ else _) = _ ∧ _
      by_cases hmatch : n = 0
      · rw [if_neg (not_not.mpr hmatch), getItem_eq_ok hmore]
        change ∃ bytes, (if (literals ++ [data[position]]).length = maxLiterals then _ else _) = _ ∧ _
        have hnext : data.take (position + 1) = out ++ (literals ++ [data[position]]) := by
          rw [← List.append_assoc, ← hsplit, List.take_add_one, List.getElem?_eq_getElem hmore]
          rfl
        split_ifs with hfull
        · obtain ⟨bytes, hbytes, henc⟩ := encodeToken_spec (Nat.le_of_eq hfull) (Or.inl ⟨rfl, rfl⟩)
          obtain ⟨rest, hrest, hstream⟩ := hflush (position + 1) bytes (by omega) hmore
          rw [hbytes]
          refine ⟨bytes ++ rest, ?_, ?_⟩
          · rw [← List.append_assoc]
            exact hrest
          · exact stream_of_literals hnext (List.append_ne_nil_of_right_ne_nil _
              (List.cons_ne_nil _ _)) henc hstream
        · apply ih (by omega) hmore hnext
          rw [List.length_append, List.length_singleton] at hfull ⊢
          omega
      · rw [if_pos hmatch]
        obtain rfl : n = c.length := hchosen.resolve_left hmatch
        obtain ⟨-, -, hrepeats⟩ := hvalid.resolve_left fun hzero => hmatch hzero.1
        obtain ⟨bytes, hbytes, henc⟩ := encodeToken_spec (Nat.le_of_lt hliterals) hvalid.encodable
        obtain ⟨rest, hrest, hstream⟩ := hflush (position + c.length) bytes (by omega)
          hrepeats.length_le
        rw [hbytes]
        refine ⟨bytes ++ rest, ?_, ?_⟩
        · rw [← List.append_assoc]
          exact hrest
        · exact stream_of_match hsplit hmore hrepeats henc hstream
    · rw [if_neg hmore]
      obtain rfl : position = data.length := by omega
      exact rest_spec hsplit hliterals result

/-- The compressor produces a stream that expands to the data. -/
theorem compress_stream (data : List UInt8) (hypothesis : Hypothesis) :
    ∃ stream, compress data hypothesis = .ok stream ∧ Stream data.length stream [] data := by
  obtain ⟨best, hdictionary, hbest⟩ := dictionary_sound data hypothesis
  rw [compress, hdictionary]
  exact compressLoop_spec hbest _ (by omega) (Nat.zero_le _) List.take_zero (by decide)

end Compress

end KlipperMcu.Scatter
