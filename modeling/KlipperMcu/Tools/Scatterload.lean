import KlipperMcu.Tools.ScatterFormat

/-!
# Decoding in the tools

`decompress` of scatterload.py expands a stream, and `tokens` of gd_scatter_compress.py checks one
without expanding it. A stream that the checker accepts is in the format, and `decompress` expands
every stream in the format.
-/

namespace KlipperMcu.Scatter

open Lib

/-! ### `decompress` -/

/-- `src[i]`. -/
def getItem {α : Type} (src : List α) (i : Nat) : Except Error α :=
  match src[i]? with
  | some x => .ok x
  | none => .error .indexError

/-- A count, and the index after it. -/
def readCount (src : List UInt8) (bits i : Nat) : Except Error (Nat × Nat) :=
  if bits = 0 then (getItem src i).map fun b => (b.toNat, i + 1) else .ok (bits, i)

def copyLiterals (src : List UInt8) : Nat → Nat → List UInt8 → Except Error (List UInt8 × Nat)
  | 0, i, dst => .ok (dst, i)
  | n + 1, i, dst => (getItem src i).bind fun b => copyLiterals src n (i + 1) (dst ++ [b])

/-- The distance, and the index after it. -/
def readDistance (src : List UInt8) (token i : Nat) : Except Error (Nat × Nat) :=
  (getItem src i).bind fun dist =>
    let hi := token &&& 12
    if hi = 12 then (getItem src (i + 1)).map fun b => (dist.toNat + b.toNat <<< 8, i + 2)
    else .ok (dist.toNat + hi <<< 6, i + 1)

def copyMatch : Nat → Nat → List UInt8 → Except Error (List UInt8)
  | 0, _, dst => .ok dst
  | n + 1, pos, dst => (getItem dst pos).bind fun b => copyMatch n (pos + 1) (dst ++ [b])

def expandMatch (src : List UInt8) (token mlen : Nat) (r : List UInt8 × Nat) :
    Except Error (List UInt8 × Nat) :=
  if mlen = 0 then .ok r
  else
    (readDistance src token r.2).bind fun d =>
      if r.1.length < d.1 then .error (.valueError "match before start of output")
      else (copyMatch (mlen + 2) (r.1.length - d.1) r.1).map fun dst => (dst, d.2)

/-- A round of the loop of `decompress`. -/
def expandToken (src : List UInt8) (i : Nat) (dst : List UInt8) : Except Error (List UInt8 × Nat) :=
  (getItem src i).bind fun token =>
    (readCount src (token.toNat &&& 3) (i + 1)).bind fun nlit =>
      (readCount src (token.toNat >>> 4) nlit.2).bind fun mlen =>
        (copyLiterals src (nlit.1 - 1) mlen.2 dst).bind (expandMatch src token.toNat mlen.1)

def decompressLoop (src : List UInt8) (outSize : Nat) :
    Nat → Nat → List UInt8 → Except Error (List UInt8 × Nat)
  | 0, _, _ => .error .endless
  | fuel + 1, i, dst =>
    if dst.length < outSize then
      (expandToken src i dst).bind fun r => decompressLoop src outSize fuel r.2 r.1
    else .ok (dst, i)

/-- Every round reads a byte of `src`. -/
def decompress (src : List UInt8) (outSize : Nat) : Except Error (List UInt8 × Nat) :=
  decompressLoop src outSize (src.length + 1) 0 []

section Decompress

variable {src rest bytes : List UInt8} {i : Nat}

lemma drop_add_length (h : src.drop i = bytes ++ rest) : src.drop (i + bytes.length) = rest := by
  rw [← List.drop_drop, h, List.drop_left]

lemma drop_succ_of_cons {b : UInt8} (h : src.drop i = b :: rest) : src.drop (i + 1) = rest := by
  rw [← List.tail_drop, h, List.tail_cons]

lemma getItem_of_drop {α : Type} {src rest : List α} {b : α} (h : src.drop i = b :: rest) :
    getItem src i = .ok b := by
  have hget : src[i]? = some b := by
    rw [← Nat.add_zero i, ← List.getElem?_drop, h]
    rfl
  rw [getItem, hget]

lemma readCount_spec {bits n : Nat} (hfield : Field bits n bytes) (h : src.drop i = bytes ++ rest) :
    readCount src bits i = .ok (n, i + bytes.length) := by
  cases hfield with
  | bits hne => rw [readCount, if_neg hne, List.length_nil, Nat.add_zero]
  | next b =>
    rw [readCount, if_pos rfl, getItem_of_drop h]
    rfl

lemma copyLiterals_spec {literals : List UInt8} (h : src.drop i = literals ++ rest)
    (dst : List UInt8) :
    copyLiterals src literals.length i dst = .ok (dst ++ literals, i + literals.length) := by
  induction literals generalizing i dst with
  | nil =>
    rw [List.append_nil]
    rfl
  | cons b literals ih =>
    have hnext : src.drop (i + 1) = literals ++ rest := drop_succ_of_cons h
    rw [List.length_cons, copyLiterals, getItem_of_drop h]
    change copyLiterals src literals.length (i + 1) (dst ++ [b]) = _
    rw [ih hnext, List.append_assoc, Nat.add_right_comm]
    rfl

lemma readDistance_spec {token distance : Nat} (href : Reference token distance bytes)
    (h : src.drop i = bytes ++ rest) :
    readDistance src token i = .ok (distance, i + bytes.length) := by
  cases href with
  | near lo hne =>
    rw [readDistance, getItem_of_drop h]
    exact if_neg hne
  | far lo hi heq =>
    have hnext : src.drop (i + 1) = hi :: rest := drop_succ_of_cons h
    rw [readDistance, getItem_of_drop h, getItem_of_drop hnext]
    exact if_pos heq

lemma copyMatch_spec {n distance : Nat} {dst : List UInt8} (hpos : 1 ≤ distance)
    (hle : distance ≤ dst.length) :
    copyMatch n (dst.length - distance) dst = .ok (copyBack distance n dst) := by
  induction n generalizing dst with
  | zero => rfl
  | succ n ih =>
    obtain ⟨x, hx, hcopy⟩ := copyBack_succ (n := n) hpos hle
    have hnext : dst.length - distance + 1 = (dst ++ [x]).length - distance := by
      rw [List.length_append, List.length_singleton]
      omega
    rw [hcopy, copyMatch, getItem, hx]
    change copyMatch n (dst.length - distance + 1) (dst ++ [x]) = _
    rw [hnext]
    apply ih
    rw [List.length_append]
    omega

lemma expandMatch_spec {token count length distance : Nat} {dst : List UInt8}
    (hmatch : Match token count length distance bytes) (h : src.drop i = bytes ++ rest)
    (hfits : length ≠ 0 → 1 ≤ distance ∧ distance ≤ dst.length) :
    expandMatch src token count (dst, i) = .ok (copyBack distance length dst, i + bytes.length) := by
  cases hmatch with
  | absent => rfl
  | present hne href =>
    obtain ⟨hpos, hle⟩ := hfits (Nat.succ_ne_zero _)
    rw [expandMatch, if_neg hne, readDistance_spec href h]
    change (if dst.length < distance then _ else _) = _
    rw [if_neg (Nat.not_lt.mpr hle)]
    dsimp only
    rw [copyMatch_spec hpos hle]
    rfl

lemma expandToken_spec {item : Item UInt8} (henc : Encoded item bytes)
    (h : src.drop i = bytes ++ rest) {dst : List UInt8} (hfits : item.Fits dst) :
    expandToken src i dst = .ok (item.expand dst, i + bytes.length) := by
  cases henc with
  | @mk token literals matchCount length distance countBytes matchBytes distanceBytes hcount hmatch
      hpart =>
    have hcounts : src.drop (i + 1) =
        countBytes ++ (matchBytes ++ (literals ++ (distanceBytes ++ rest))) := by
      rw [List.cons_append, List.append_assoc, List.append_assoc, List.append_assoc] at h
      exact drop_succ_of_cons h
    have hmatches := drop_add_length hcounts
    have hliterals := drop_add_length hmatches
    have hdistance := drop_add_length hliterals
    rw [expandToken, getItem_of_drop h]
    change (readCount src (token.toNat &&& 3) (i + 1)).bind _ = _
    rw [readCount_spec hcount hcounts]
    change (readCount src (token.toNat >>> 4) (i + 1 + countBytes.length)).bind _ = _
    rw [readCount_spec hmatch hmatches]
    change (copyLiterals src literals.length _ dst).bind _ = _
    rw [copyLiterals_spec hliterals dst]
    change expandMatch src token.toNat matchCount (dst ++ literals, _) = _
    rw [expandMatch_spec hpart hdistance]
    · simp only [List.length_cons, List.length_append, Item.expand]
      congr 2
      omega
    · rw [List.length_append]
      exact hfits

lemma Encoded.length_pos {item : Item UInt8} (h : Encoded item bytes) : 1 ≤ bytes.length := by
  cases h
  exact Nat.succ_pos _

lemma decompressLoop_spec {size fuel : Nat} {out out' : List UInt8}
    (hstream : Stream size bytes out out') (h : src.drop i = bytes ++ rest)
    (hfuel : bytes.length < fuel) :
    decompressLoop src size fuel i out = .ok (out', i + bytes.length) := by
  induction hstream generalizing fuel i with
  | @done out hsize =>
    obtain ⟨fuel, rfl⟩ := Nat.exists_eq_succ_of_ne_zero (Nat.ne_zero_of_lt hfuel)
    rw [decompressLoop, if_neg (by omega)]
    rfl
  | @item item bytes rest' out out' hlt henc hfits hle hstream ih =>
    obtain ⟨fuel, rfl⟩ := Nat.exists_eq_succ_of_ne_zero (Nat.ne_zero_of_lt hfuel)
    have hpos := henc.length_pos
    rw [List.append_assoc] at h
    rw [List.length_append] at hfuel ⊢
    rw [decompressLoop, if_pos hlt, expandToken_spec henc h hfits]
    change decompressLoop src size fuel (i + bytes.length) (item.expand out) = _
    rw [ih (drop_add_length h) (by omega), Nat.add_assoc]

/-- A stream in the format is expanded, whatever follows it. -/
theorem decompress_of_stream {size : Nat} {out : List UInt8} (h : Stream size bytes [] out)
    (rest : List UInt8) : decompress (bytes ++ rest) size = .ok (out, bytes.length) := by
  have hdrop : (bytes ++ rest).drop 0 = bytes ++ rest := rfl
  rw [decompress, decompressLoop_spec h hdrop, Nat.zero_add]
  rw [List.length_append]
  omega

end Decompress

/-! ### The checker -/

/-- What `tokens` reports of a token. -/
structure TokenInfo where
  compressedOffset : Nat
  compressedSize : Nat
  outputStart : Nat
  matchStart : Nat
  literalCount : Nat
  matchLength : Nat
  distance : Nat
deriving DecidableEq, Repr

/-- The byte at the position, and the position after it. -/
def byte (stream : List UInt8) (position : Nat) : Except Error (Nat × Nat) :=
  match stream[position]? with
  | none => .error (.valueError "truncated compressed token")
  | some value => .ok (value.toNat, position + 1)

/-- `bits or byte()`. -/
def bitsOrByte (stream : List UInt8) (bits position : Nat) : Except Error (Nat × Nat) :=
  if bits ≠ 0 then .ok (bits, position) else byte stream position

/-- The literals are read and counted. -/
def skipLiterals (stream : List UInt8) : Nat → Nat → Except Error Nat
  | 0, position => .ok position
  | n + 1, position => (byte stream position).bind fun r => skipLiterals stream n r.2

def distanceField (stream : List UInt8) (token position : Nat) : Except Error (Nat × Nat) :=
  (byte stream position).bind fun low =>
    if token &&& 12 = 12 then
      (byte stream low.2).bind fun high => .ok (low.1 + high.1 <<< 8, high.2)
    else .ok (low.1 + (token &&& 12) <<< 6, low.2)

/-- The distance and the length of a match, and the position after it. -/
def inspectMatch (stream : List UInt8) (token encodedLength output position : Nat) :
    Except Error (Nat × Nat × Nat) :=
  if encodedLength = 0 then .ok (0, 0, position)
  else
    (distanceField stream token position).bind fun d =>
      if ¬(1 ≤ d.1 ∧ d.1 ≤ output) then .error (.valueError "invalid back-reference distance")
      else .ok (d.1, encodedLength + 2, d.2)

/-- A round of the loop of `tokens`, with the position and the output after it. -/
def inspectToken (stream : List UInt8) (outputSize position output : Nat) :
    Except Error (TokenInfo × Nat × Nat) :=
  (byte stream position).bind fun token =>
    (bitsOrByte stream (token.1 &&& 3) token.2).bind fun count =>
      (bitsOrByte stream (token.1 >>> 4) count.2).bind fun encodedLength =>
        if count.1 = 0 then .error (.valueError "zero literal count field")
        else
          (skipLiterals stream (count.1 - 1) encodedLength.2).bind fun next =>
            let matchStart := output + (count.1 - 1)
            (inspectMatch stream token.1 encodedLength.1 matchStart next).bind fun m =>
              if outputSize < matchStart + m.2.1 then
                .error (.valueError "token overruns expanded region")
              else
                .ok (⟨position, m.2.2 - position, output, matchStart, count.1 - 1, m.2.1, m.1⟩,
                  m.2.2, matchStart + m.2.1)

def tokensLoop (stream : List UInt8) (outputSize : Nat) :
    Nat → Nat → Nat → List TokenInfo → Except Error (List TokenInfo × Nat)
  | 0, _, _, _ => .error .endless
  | fuel + 1, position, output, result =>
    if output < outputSize then
      (inspectToken stream outputSize position output).bind fun r =>
        tokensLoop stream outputSize fuel r.2.1 r.2.2 (result ++ [r.1])
    else .ok (result, position)

/-- Every round reads a byte of the stream. -/
def tokens (stream : List UInt8) (outputSize : Nat) : Except Error (List TokenInfo × Nat) :=
  tokensLoop stream outputSize (stream.length + 1) 0 0 []

section Tokens

variable {stream : List UInt8} {position : Nat}

/-- The bytes of the stream from one position to the other. -/
structure Span (stream bytes : List UInt8) (position next : Nat) : Prop where
  drop : stream.drop position = bytes ++ stream.drop next
  next : next = position + bytes.length

lemma Span.nil (stream : List UInt8) (position : Nat) : Span stream [] position position :=
  ⟨rfl, rfl⟩

lemma Span.append {bytes bytes' : List UInt8} {next last : Nat}
    (h : Span stream bytes position next)
    (h' : Span stream bytes' next last) : Span stream (bytes ++ bytes') position last where
  drop := by rw [h.drop, h'.drop, List.append_assoc]
  next := by rw [h'.next, h.next, List.length_append, Nat.add_assoc]

lemma bind_eq_ok {α β : Type} {x : Except Error α} {f : α → Except Error β} {b : β}
    (h : x.bind f = .ok b) : ∃ a, x = .ok a ∧ f a = .ok b := by
  cases x with
  | error e => cases h
  | ok a => exact ⟨a, rfl, h⟩

lemma byte_eq_ok {r : Nat × Nat} (h : byte stream position = .ok r) :
    ∃ b : UInt8, r.1 = b.toNat ∧ Span stream [b] position r.2 := by
  unfold byte at h
  cases hget : stream[position]? with
  | none =>
    rw [hget] at h
    cases h
  | some b =>
    rw [hget] at h
    cases h
    obtain ⟨hlt, rfl⟩ := List.getElem?_eq_some_iff.mp hget
    exact ⟨_, rfl, List.drop_eq_getElem_cons hlt, rfl⟩

lemma bitsOrByte_eq_ok {bits : Nat} {r : Nat × Nat} (h : bitsOrByte stream bits position = .ok r) :
    ∃ bytes, Field bits r.1 bytes ∧ Span stream bytes position r.2 := by
  unfold bitsOrByte at h
  split_ifs at h with hbits
  · cases h
    exact ⟨[], Field.bits hbits, Span.nil stream position⟩
  · obtain ⟨b, hb, hspan⟩ := byte_eq_ok h
    rw [not_not.mp hbits, hb]
    exact ⟨[b], Field.next b, hspan⟩

lemma skipLiterals_eq_ok {n next : Nat} (h : skipLiterals stream n position = .ok next) :
    ∃ literals, literals.length = n ∧ Span stream literals position next := by
  induction n generalizing position with
  | zero =>
    cases h
    exact ⟨[], rfl, Span.nil stream next⟩
  | succ n ih =>
    obtain ⟨r, hr, hrest⟩ := bind_eq_ok h
    obtain ⟨b, -, hspan⟩ := byte_eq_ok hr
    obtain ⟨literals, hlength, hspan'⟩ := ih hrest
    exact ⟨b :: literals, congrArg (· + 1) hlength, hspan.append hspan'⟩

lemma distanceField_eq_ok {token : Nat} {r : Nat × Nat}
    (h : distanceField stream token position = .ok r) :
    ∃ bytes, Reference token r.1 bytes ∧ Span stream bytes position r.2 := by
  obtain ⟨low, hlow, hrest⟩ := bind_eq_ok h
  obtain ⟨lo, hlo, hspan⟩ := byte_eq_ok hlow
  split_ifs at hrest with hfar
  · obtain ⟨high, hhigh, heq⟩ := bind_eq_ok hrest
    obtain ⟨hi, hhi, hspan'⟩ := byte_eq_ok hhigh
    cases heq
    rw [hlo, hhi]
    exact ⟨[lo, hi], Reference.far lo hi hfar, hspan.append hspan'⟩
  · cases hrest
    rw [hlo]
    exact ⟨[lo], Reference.near lo hfar, hspan⟩

lemma inspectMatch_eq_ok {token count output : Nat} {r : Nat × Nat × Nat}
    (h : inspectMatch stream token count output position = .ok r) :
    ∃ bytes, Match token count r.2.1 r.1 bytes ∧ Span stream bytes position r.2.2 ∧
      (r.2.1 ≠ 0 → 1 ≤ r.1 ∧ r.1 ≤ output) := by
  unfold inspectMatch at h
  split_ifs at h with hcount
  · cases h
    rw [hcount]
    exact ⟨[], Match.absent, Span.nil stream position, fun hne => absurd rfl hne⟩
  · obtain ⟨d, hd, hrest⟩ := bind_eq_ok h
    obtain ⟨bytes, href, hspan⟩ := distanceField_eq_ok hd
    split_ifs at hrest with hrange
    cases hrest
    exact ⟨bytes, Match.present hcount href, hspan, fun _ => hrange⟩

lemma inspectToken_eq_ok {size output : Nat} {r : TokenInfo × Nat × Nat}
    (h : inspectToken stream size position output = .ok r) :
    ∃ item bytes, Encoded item bytes ∧ Span stream bytes position r.2.1 ∧
      (∀ out : List UInt8, out.length = output → item.Fits out) ∧
      r.2.2 = output + item.literals.length + item.length ∧ r.2.2 ≤ size := by
  obtain ⟨token, htoken, h⟩ := bind_eq_ok h
  obtain ⟨count, hcount, h⟩ := bind_eq_ok h
  obtain ⟨encodedLength, hlength, h⟩ := bind_eq_ok h
  split_ifs at h with hzero
  obtain ⟨next, hnext, h⟩ := bind_eq_ok h
  obtain ⟨m, hm, h⟩ := bind_eq_ok h
  split_ifs at h with hover
  cases h
  obtain ⟨b, hb, hspan⟩ := byte_eq_ok htoken
  obtain ⟨countBytes, hfield, hspan₁⟩ := bitsOrByte_eq_ok hcount
  obtain ⟨matchBytes, hfield', hspan₂⟩ := bitsOrByte_eq_ok hlength
  obtain ⟨literals, hliterals, hspan₃⟩ := skipLiterals_eq_ok hnext
  obtain ⟨distanceBytes, hmatch, hspan₄, hfits⟩ := inspectMatch_eq_ok hm
  rw [hb] at hfield hfield' hmatch
  rw [show count.1 = literals.length + 1 by omega] at hfield
  refine ⟨_, _, Encoded.mk hfield hfield' hmatch,
    hspan.append (hspan₁.append (hspan₂.append (hspan₃.append hspan₄))), ?_, ?_,
    Nat.not_lt.mp hover⟩
  · intro out hout
    rw [Item.Fits, hout, hliterals]
    exact hfits
  · rw [hliterals]

lemma tokensLoop_eq_ok {size fuel output : Nat} {infos : List TokenInfo}
    {r : List TokenInfo × Nat} (h : tokensLoop stream size fuel position output infos = .ok r)
    (hle : output ≤ size) {out : List UInt8} (hout : out.length = output) :
    ∃ bytes out', Stream size bytes out out' ∧ Span stream bytes position r.2 := by
  induction fuel generalizing position output infos out with
  | zero => cases h
  | succ fuel ih =>
    rw [tokensLoop] at h
    split_ifs at h with hlt
    · obtain ⟨next, hnext, hrest⟩ := bind_eq_ok h
      obtain ⟨item, bytes, henc, hspan, hfits, houtput, hsize⟩ := inspectToken_eq_ok hnext
      have hexpand : (item.expand out).length = next.2.2 := by
        rw [(hfits out hout).length_expand, houtput, hout]
      obtain ⟨bytes', out', hstream, hspan'⟩ := ih hrest hsize hexpand
      refine ⟨bytes ++ bytes', out', ?_, hspan.append hspan'⟩
      exact Stream.item (by omega) henc (hfits out hout) (by omega) hstream
    · cases h
      exact ⟨[], out, Stream.done (by omega), Span.nil stream position⟩

/-- An accepted stream starts with a stream in the format. -/
theorem stream_of_tokens {size : Nat} {r : List TokenInfo × Nat}
    (h : tokens stream size = .ok r) :
    ∃ bytes rest out, stream = bytes ++ rest ∧ bytes.length = r.2 ∧ Stream size bytes [] out := by
  obtain ⟨bytes, out, hstream, hspan⟩ := tokensLoop_eq_ok h (Nat.zero_le size) List.length_nil
  refine ⟨bytes, stream.drop r.2, out, hspan.drop, ?_, hstream⟩
  rw [hspan.next, Nat.zero_add]

end Tokens

end KlipperMcu.Scatter
