import KlipperMcu.Firmware.RuntimeScatter
import KlipperMcu.Tools.ScatterCompress

/-!
# The decoders of the tools and of the firmware

The firmware expands every stream in the format, in the same way as `decompress` of the tools. Both
expand what the checker `tokens` accepts, and what the compressor produces.
-/

namespace KlipperMcu.Scatter

open Lib RuntimeScatter

section Runtime

variable {stream rest bytes : List UInt8} {i : Nat}

lemma Field.lt {bits n : Nat} (h : Field bits n bytes) (hbits : bits < 256) : n < 256 := by
  cases h with
  | bits => exact hbits
  | next b => exact b.toNat_lt

lemma Reference.lt {token distance : Nat} (h : Reference token distance bytes) :
    distance < 65536 := by
  have hand : token &&& 12 ≤ 12 := Nat.and_le_right
  cases h with
  | near lo =>
    have hlo := lo.toNat_lt
    rw [Nat.shiftLeft_eq]
    omega
  | far lo hi =>
    have hlo := lo.toNat_lt
    have hhi := hi.toNat_lt
    rw [Nat.shiftLeft_eq]
    omega

lemma ofNat_toNat_byte (b : UInt8) : UInt32.ofNat b.toNat = b.toUInt32 := by
  apply UInt32.toNat_inj.mp
  have hb := b.toNat_lt
  rw [UInt32.toNat_ofNat', UInt8.toNat_toUInt32]
  omega

lemma next_written {b : UInt8} (h : stream.drop i = b :: rest) (out : List UInt8) :
    next stream (written i out) = some (b, written (i + 1) out) := by
  have hget : stream[i]? = some b := by
    rw [← Nat.add_zero i, ← List.getElem?_drop, h]
    rfl
  change (stream[i]?).map _ = _
  rw [hget]
  rfl

lemma count_written {bits : UInt32} {n : Nat} (hfield : Field bits.toNat n bytes)
    (h : stream.drop i = bytes ++ rest) (out : List UInt8) :
    count stream bits (written i out) =
      some (UInt32.ofNat n, written (i + bytes.length) out) := by
  generalize hbits : bits.toNat = m at hfield
  cases hfield with
  | bits hne =>
    have hbits' : bits ≠ 0 := by
      rintro rfl
      exact hne hbits.symm
    rw [count, if_neg hbits', ← hbits, UInt32.ofNat_toNat, List.length_nil, Nat.add_zero]
  | next b =>
    have hbits' : bits = 0 := UInt32.toNat_inj.mp hbits
    rw [count, if_pos hbits', next_written h, ofNat_toNat_byte]
    rfl

lemma copyLiterals_written {literals : List UInt8} (h : stream.drop i = literals ++ rest)
    (out : List UInt8) :
    RuntimeScatter.copyLiterals stream literals.length (written i out) =
      some (written (i + literals.length) (out ++ literals)) := by
  induction literals generalizing i out with
  | nil =>
    rw [List.append_nil]
    rfl
  | cons b literals ih =>
    have hnext : stream.drop (i + 1) = literals ++ rest := drop_succ_of_cons h
    rw [List.length_cons, RuntimeScatter.copyLiterals, next_written h, Option.bind_some]
    dsimp only
    rw [put_written, ih hnext, List.append_assoc, Nat.add_right_comm]
    rfl

lemma distance_written {token : UInt32} {distance : Nat}
    (href : Reference token.toNat distance bytes) (h : stream.drop i = bytes ++ rest)
    (out : List UInt8) :
    RuntimeScatter.distance stream token (written i out) =
      some (UInt32.ofNat distance, written (i + bytes.length) out) := by
  have hand : token.toNat &&& 12 ≤ 12 := Nat.and_le_right
  have htoken : (token &&& 12).toNat = token.toNat &&& 12 := UInt32.toNat_and token 12
  cases href with
  | near lo hne =>
    have hne' : token &&& 12 ≠ 12 := by
      intro heq
      rw [heq] at htoken
      exact hne htoken.symm
    have hvalue : lo.toUInt32 + (token &&& 12) <<< (6 : UInt32) =
        UInt32.ofNat (lo.toNat + (token.toNat &&& 12) <<< 6) := by
      apply UInt32.toNat_inj.mp
      rw [UInt32.toNat_add, UInt32.toNat_shiftLeft, htoken, UInt8.toNat_toUInt32,
        UInt32.toNat_ofNat']
      change (lo.toNat + (token.toNat &&& 12) <<< 6 % 2 ^ 32) % 2 ^ 32 = _
      rw [Nat.add_mod_mod]
    rw [RuntimeScatter.distance, next_written h, Option.bind_some]
    dsimp only
    rw [if_neg hne', hvalue]
    rfl
  | far lo hi heq =>
    have heq' : token &&& 12 = 12 := UInt32.toNat_inj.mp (htoken.trans heq)
    have hnext : stream.drop (i + 1) = hi :: rest := drop_succ_of_cons h
    have hvalue : lo.toUInt32 + hi.toUInt32 <<< (8 : UInt32) =
        UInt32.ofNat (lo.toNat + hi.toNat <<< 8) := by
      apply UInt32.toNat_inj.mp
      rw [UInt32.toNat_add, UInt32.toNat_shiftLeft, UInt8.toNat_toUInt32, UInt8.toNat_toUInt32,
        UInt32.toNat_ofNat']
      change (lo.toNat + hi.toNat <<< 8 % 2 ^ 32) % 2 ^ 32 = _
      rw [Nat.add_mod_mod]
    rw [RuntimeScatter.distance, next_written h, Option.bind_some]
    dsimp only
    rw [if_pos heq', next_written hnext, Option.map_some, hvalue]
    rfl

lemma expandMatch_written {token : UInt32} {n length distance : Nat} {out : List UInt8}
    (hn : n < 256) (hmatch : Match token.toNat n length distance bytes)
    (h : stream.drop i = bytes ++ rest)
    (hfits : length ≠ 0 → 1 ≤ distance ∧ distance ≤ out.length) :
    RuntimeScatter.expandMatch stream token (UInt32.ofNat n) (written i out) =
      some (written (i + bytes.length) (copyBack distance length out)) := by
  cases hmatch with
  | absent => rfl
  | present hne href =>
    obtain ⟨hpos, hle⟩ := hfits (Nat.succ_ne_zero _)
    have hlt := href.lt
    have hcount : (UInt32.ofNat n).toNat = n := by
      rw [UInt32.toNat_ofNat']
      exact Nat.mod_eq_of_lt (by omega)
    have hdistance : (UInt32.ofNat distance).toNat = distance := by
      rw [UInt32.toNat_ofNat']
      exact Nat.mod_eq_of_lt (by omega)
    have hne' : UInt32.ofNat n ≠ 0 := by
      intro heq
      rw [heq] at hcount
      exact hne hcount.symm
    rw [RuntimeScatter.expandMatch, if_neg hne', distance_written href h, Option.bind_some]
    dsimp only
    rw [hdistance, hcount]
    change (if out.length < distance then _ else
      RuntimeScatter.copyMatch (n + 2) (out.length - distance) _) = _
    rw [if_neg (Nat.not_lt.mpr hle), copyMatch_written hpos hle]

lemma expandToken_written {item : Item UInt8} (henc : Encoded item bytes)
    (h : stream.drop i = bytes ++ rest) {out : List UInt8} (hfits : item.Fits out) :
    RuntimeScatter.expandToken stream (written i out) =
      some (written (i + bytes.length) (item.expand out)) := by
  cases henc with
  | @mk token literals matchCount length distance countBytes matchBytes distanceBytes hcount hmatch
      hpart =>
    have hcounts : stream.drop (i + 1) =
        countBytes ++ (matchBytes ++ (literals ++ (distanceBytes ++ rest))) := by
      rw [List.cons_append, List.append_assoc, List.append_assoc, List.append_assoc] at h
      exact drop_succ_of_cons h
    have hmatches := drop_add_length hcounts
    have hliterals := drop_add_length hmatches
    have hdistance := drop_add_length hliterals
    have htoken := token.toNat_lt
    have hlow : (token.toUInt32 &&& 3).toNat = token.toNat &&& 3 := by
      rw [UInt32.toNat_and, UInt8.toNat_toUInt32]
      rfl
    have hhigh : (token.toUInt32 >>> 4).toNat = token.toNat >>> 4 := by
      rw [UInt32.toNat_shiftRight, UInt8.toNat_toUInt32]
      rfl
    have hlength := hcount.lt (Nat.lt_of_le_of_lt Nat.and_le_left htoken)
    have hn := hmatch.lt (by rw [Nat.shiftRight_eq_div_pow]; omega)
    have hround : (UInt32.ofNat (literals.length + 1) - 1).toNat = literals.length := by
      rw [UInt32.ofNat_add, UInt32.ofNat_one, UInt32.add_sub_cancel, UInt32.toNat_ofNat']
      exact Nat.mod_eq_of_lt (by omega)
    rw [← hlow] at hcount
    rw [← hhigh] at hmatch
    rw [← UInt8.toNat_toUInt32] at hpart
    rw [RuntimeScatter.expandToken, next_written h, Option.bind_some]
    dsimp only
    rw [count_written hcount hcounts, Option.bind_some]
    dsimp only
    rw [count_written hmatch hmatches, Option.bind_some]
    dsimp only
    rw [hround, copyLiterals_written hliterals, Option.bind_some,
      expandMatch_written hn hpart hdistance]
    · simp only [List.length_cons, List.length_append, Item.expand]
      congr 2
      omega
    · rw [List.length_append]
      exact hfits

lemma decompressLoop_written {size fuel : Nat} {out out' : List UInt8}
    (hstream : Stream size bytes out out') (hlt : out.length < size)
    (h : stream.drop i = bytes ++ rest) (hfuel : bytes.length < fuel) :
    RuntimeScatter.decompressLoop stream size fuel (written i out) =
      some (written (i + bytes.length) out') := by
  induction hstream generalizing fuel i with
  | done hsize => omega
  | @item item bytes rest' out out' _ henc hfits hle hstream ih =>
    obtain ⟨fuel, rfl⟩ := Nat.exists_eq_succ_of_ne_zero (Nat.ne_zero_of_lt hfuel)
    have hpos := henc.length_pos
    rw [List.append_assoc] at h
    rw [List.length_append] at hfuel ⊢
    rw [RuntimeScatter.decompressLoop, expandToken_written henc h hfits, Option.bind_some]
    change (if (item.expand out).length < size then _ else _) = _
    split_ifs with hmore
    · rw [ih hmore (drop_add_length h) (by omega), Nat.add_assoc]
    · cases hstream with
      | done => rfl
      | item hlt' => exact absurd hlt' hmore

/-- The firmware expands a stream in the format, whatever follows it. -/
theorem gdRuntimeDecompress_of_stream {size : Nat} {out : List UInt8}
    (h : Stream size bytes [] out) (hsize : 0 < size) (rest : List UInt8) :
    gdRuntimeDecompress (bytes ++ rest) size = some (written bytes.length out) := by
  have hdrop : (bytes ++ rest).drop 0 = bytes ++ rest := rfl
  rw [gdRuntimeDecompress, written_nil, decompressLoop_written h hsize hdrop, Nat.zero_add]
  rw [List.length_append]
  omega

end Runtime

lemma Stream.length_eq {size : Nat} {bytes out out' : List UInt8} (h : Stream size bytes out out') :
    out'.length = size := by
  induction h with
  | done hsize => exact hsize
  | item _ _ _ _ _ ih => exact ih

/-- What the checker accepts, both decoders expand to the same bytes. The firmware writes nothing
else, and both read as much of the stream as the checker. -/
theorem decoders_agree {stream : List UInt8} {size used : Nat} {infos : List TokenInfo}
    (hsize : 0 < size) (h : tokens stream size = .ok (infos, used)) :
    ∃ out m, out.length = size ∧ decompress stream size = .ok (out, used) ∧
      gdRuntimeDecompress stream size = some m ∧ m.source = used ∧ m.destination = size ∧
      ∀ i, m.memory i = out[i]? := by
  obtain ⟨bytes, rest, out, rfl, hused, hstream⟩ := stream_of_tokens h
  change bytes.length = used at hused
  rw [← hused]
  refine ⟨out, written bytes.length out, hstream.length_eq, decompress_of_stream hstream rest,
    gdRuntimeDecompress_of_stream hstream hsize rest, rfl, hstream.length_eq, ?_⟩
  intro i
  rfl

/-- One literal, and an overlapping match of four bytes. -/
theorem decoders_agree_run :
    ∃ out m, out.length = 5 ∧ decompress [0x22, 0x61, 1, 0xff] 5 = .ok (out, 3) ∧
      gdRuntimeDecompress [0x22, 0x61, 1, 0xff] 5 = some m ∧ m.source = 3 ∧ m.destination = 5 ∧
      ∀ i, m.memory i = out[i]? :=
  decoders_agree (by decide)
    (show tokens [0x22, 0x61, 1, 0xff] 5 = .ok ([⟨0, 3, 0, 1, 1, 4, 1⟩], 3) by decide +kernel)

/-- Both decoders give back what was compressed, for every dictionary and parser. The firmware writes
the data and nothing else. -/
theorem compress_decoders {data : List UInt8} (hdata : data ≠ []) (hypothesis : Hypothesis) :
    ∃ stream m, compress data hypothesis = .ok stream ∧
      decompress stream data.length = .ok (data, stream.length) ∧
      gdRuntimeDecompress stream data.length = some m ∧ m.source = stream.length ∧
      m.destination = data.length ∧ ∀ i, m.memory i = data[i]? := by
  obtain ⟨stream, hcompress, hstream⟩ := compress_stream data hypothesis
  have hdecompress := decompress_of_stream hstream []
  have hruntime := gdRuntimeDecompress_of_stream hstream (List.length_pos_iff.mpr hdata) []
  rw [List.append_nil] at hdecompress hruntime
  refine ⟨stream, written stream.length data, hcompress, hdecompress, hruntime, rfl, rfl, ?_⟩
  intro i
  rfl

/-- A run that is longer than the window. -/
theorem compress_decoders_zeros :
    ∃ stream m, compress (List.replicate 70000 0) .lazyLex128 = .ok stream ∧
      decompress stream (List.replicate 70000 (0 : UInt8)).length =
        .ok (List.replicate 70000 0, stream.length) ∧
      gdRuntimeDecompress stream (List.replicate 70000 (0 : UInt8)).length = some m ∧
      m.source = stream.length ∧ m.destination = (List.replicate 70000 (0 : UInt8)).length ∧
      ∀ i, m.memory i = (List.replicate 70000 0)[i]? :=
  compress_decoders (by rw [Ne, List.replicate_eq_nil_iff]; decide) .lazyLex128

end KlipperMcu.Scatter
