import KlipperMcu.Firmware.Encode
import KlipperMcu.Firmware.FindBlock
import KlipperMcu.Lib.Reads
import KlipperMcu.Lib.Vlq
import KlipperMcu.Lib.Word

/-!
# Parsing and dispatching commands

`command_dispatch` and the functions that it parses commands with. A pointer into the receive buffer
is a position in the list of its bytes, where the block starts at position 0.

The end of the payload is only looked at before a parameter and behind a buffer. An integer or a
message id that starts in the payload is read to its end, which may lie in the trailer. It never
lies behind it, because the SYNC byte ends every integer.
-/

namespace KlipperMcu.Wire

open Lib

/-- What ends the dispatching of a block early. `wild` is a read outside of the buffer. -/
inductive Stop where
  | commandParserError
  | invalidCommand
  | handlerShutdown
  | wild
deriving DecidableEq, Repr

def readb (buf : List UInt8) (p : Nat) : Reads Stop UInt8 := Reads.readAt buf .wild p

/-- The loop of `parse_int` behind byte `c`. -/
def parseIntLoop (buf : List UInt8) : Nat → UInt8 → UInt32 → Nat → Reads Stop (UInt32 × Nat)
  | fuel, c, v, p =>
    if c &&& 0x80 = 0 then pure (v, p)
    else
      match fuel with
      | 0 => Reads.stop .wild
      | fuel + 1 => do
        let c ← readb buf p
        parseIntLoop buf fuel c ((v <<< 7) ||| (c &&& 0x7f).toUInt32) (p + 1)

/-- `parse_int`: the number at `p` and the position behind it. -/
def parseInt (buf : List UInt8) (p : Nat) : Reads Stop (UInt32 × Nat) := do
  let c ← readb buf p
  let v := (c &&& 0x7f).toUInt32
  let v := if c &&& 0x60 = 0x60 then v ||| -0x20 else v
  parseIntLoop buf buf.length c v (p + 1)

def commandParseMsgid (buf : List UInt8) (p : Nat) : Reads Stop (UInt16 × Nat) := do
  let c ← readb buf p
  if c &&& 0x80 ≠ 0 then
    let d ← readb buf (p + 1)
    pure (((c &&& 0x7f).toUInt16 <<< 7) ||| d.toUInt16, p + 2)
  else pure (c.toUInt16, p + 1)

/-- `command_encode_ptr` of a position in a buffer at address `base`. -/
def commandEncodePtr (base : UInt32) (p : Nat) : UInt32 := base + UInt32.ofNat p

/-- `command_parsef`: the words of the arguments and the position behind the last parameter. -/
def commandParsef (base : UInt32) (buf : List UInt8) (maxend : Nat) :
    List ParamType → Nat → Reads Stop (List UInt32 × Nat)
  | [], p => pure ([], p)
  | t :: types, p =>
    if p > maxend then Reads.stop .commandParserError
    else
      match t with
      | .int _ => do
        let (v, p) ← parseInt buf p
        let (args, p) ← commandParsef base buf maxend types p
        pure (v :: args, p)
      | .buffer => do
        let len ← readb buf p
        let p := p + 1
        if p + len.toNat > maxend then Reads.stop .commandParserError
        else
          let (args, q) ← commandParsef base buf maxend types (p + len.toNat)
          pure (len.toUInt32 :: commandEncodePtr base p :: args, q)
      | _ => Reads.stop .commandParserError

/-- `struct command_parser`. The handlers are named by `φ`. -/
structure CommandParser (φ : Type) where
  paramTypes : List ParamType
  numArgs : Nat
  inShutdown : Bool
  func : φ
deriving DecidableEq, Repr

/-- The parser that `build_parser` generates for a command. -/
def buildCommandParser {φ : Type} (paramTypes : List ParamType) (inShutdown : Bool) (func : φ) :
    CommandParser φ where
  paramTypes := paramTypes
  numArgs := paramTypes.length + paramTypes.count .progmemBuffer + paramTypes.count .buffer
  inShutdown := inShutdown
  func := func

def commandLookupParser {φ : Type} (index : List (CommandParser φ)) (cmdid : UInt16) :
    Reads Stop (CommandParser φ) :=
  if cmdid = 0 then Reads.stop .invalidCommand
  else
    match index[cmdid.toNat]? with
    | none => Reads.stop .invalidCommand
    | some cp => pure cp

/-- The rest of the firmware, as far as `command_dispatch` uses it. A handler that does not return
has shut the firmware down. -/
structure Env (σ φ : Type) where
  isShutdown : σ → Bool
  reportShutdown : σ → σ
  irqPoll : σ → σ
  func : φ → List UInt32 → σ → σ × Bool

/-- A call of a handler, with the positions of its command. -/
structure Call (φ : Type) where
  start : Nat
  stop : Nat
  parser : CommandParser φ
  args : List UInt32
deriving DecidableEq, Repr

/-- What a round of the loop of `command_dispatch` does. -/
structure Round (σ φ : Type) where
  state : σ
  next : Except Stop Nat
  calls : List (Call φ)
  reads : List Nat

structure Dispatched (σ φ : Type) where
  state : σ
  stop : Option Stop
  calls : List (Call φ)
  reads : List Nat

def Dispatched.after {σ φ : Type} (d : Dispatched σ φ) (r : Round σ φ) : Dispatched σ φ :=
  { d with calls := r.calls ++ d.calls, reads := r.reads ++ d.reads }

section Dispatch

variable {σ φ : Type} (env : Env σ φ) (index : List (CommandParser φ)) (base : UInt32)
  (buf : List UInt8) (msgend : Nat)

def parseCommand (p : Nat) : Reads Stop (CommandParser φ × List UInt32 × Nat) := do
  let (cmdid, p) ← commandParseMsgid buf p
  let cp ← commandLookupParser index cmdid
  let (args, p) ← commandParsef base buf msgend cp.paramTypes p
  pure (cp, args, p)

def dispatchRound (p : Nat) (s : σ) : Round σ φ :=
  let cmd := parseCommand index base buf msgend p
  match cmd.result with
  | .error e => ⟨s, .error e, [], cmd.reads⟩
  | .ok (cp, args, q) =>
    if env.isShutdown s ∧ ¬cp.inShutdown then ⟨env.reportShutdown s, .ok q, [], cmd.reads⟩
    else
      let r := env.func cp.func args (env.irqPoll s)
      ⟨r.1, if r.2 then .ok q else .error .handlerShutdown, [⟨p, q, cp, args⟩], cmd.reads⟩

def dispatchLoop : Nat → Nat → σ → Dispatched σ φ
  | 0, _, s => ⟨s, none, [], []⟩
  | fuel + 1, p, s =>
    if p < msgend then
      let r := dispatchRound env index base buf msgend p s
      match r.next with
      | .error e => ⟨r.state, some e, r.calls, r.reads⟩
      | .ok q => (dispatchLoop fuel q r.state).after r
    else ⟨s, none, [], []⟩

end Dispatch

/-- `command_dispatch`. Every round moves on by a byte at least, so that `msglen` rounds are
enough. -/
def commandDispatch {σ φ : Type} (env : Env σ φ) (index : List (CommandParser φ)) (base : UInt32)
    (buf : List UInt8) (msglen : Nat) (s : σ) : Dispatched σ φ :=
  dispatchLoop env index base buf (msglen - messageTrailerSize) msglen messageHeaderSize s

section ParseInt

variable {buf : List UInt8} {p n fuel : Nat} {c : UInt8} {v w : Int}

lemma shiftLeft_or_ofInt (w : Int) (c : UInt8) :
    (UInt32.ofInt w <<< 7) ||| (c &&& 0x7f).toUInt32 =
      UInt32.ofInt (w * 128 + (c.toNat % 128 : Nat)) := by
  have hw := toNat_ofInt w
  have hsum := toNat_ofInt (w * 128 + (c.toNat % 128 : Nat))
  have hlow : c.toNat % 128 < 2 ^ 7 := Nat.mod_lt _ (by decide)
  have hshift : (UInt32.ofInt w <<< 7).toNat = 2 ^ 7 * ((UInt32.ofInt w).toNat % 2 ^ 25) := by
    rw [UInt32.toNat_shiftLeft]
    change (UInt32.ofInt w).toNat <<< 7 % 2 ^ 32 = _
    rw [Nat.shiftLeft_eq]
    omega
  rw [← UInt32.toNat_inj, UInt32.toNat_or, hshift, UInt8.toNat_toUInt32, toNat_and_0x7f,
    ← Nat.two_pow_add_eq_or_of_lt hlow]
  omega

lemma extend_first : ∀ c : UInt8,
    (if c &&& 0x60 = 0x60 then (c &&& 0x7f).toUInt32 ||| -0x20 else (c &&& 0x7f).toUInt32) =
      UInt32.ofInt (Vlq.extend (c.toNat % 128)) :=
  forall_byte (by decide +kernel)

lemma result_readb (h : buf[p]? = some c) : (readb buf p).result = .ok c :=
  Reads.result_readAt Stop.wild h

lemma parseIntLoop_of_last (hc : c.toNat < 128) (v : UInt32) :
    parseIntLoop buf fuel c v p = pure (v, p) := by
  cases fuel <;> rw [parseIntLoop, if_pos ((and_0x80_eq_zero_iff c).mpr hc)]

lemma drop_cons {b : UInt8} {bytes : List UInt8} (h : buf.drop p = b :: bytes) :
    buf[p]? = some b ∧ buf.drop (p + 1) = bytes := by
  constructor
  · rw [← List.head?_drop, h, List.head?_cons]
  · rw [← List.tail_drop, h, List.tail_cons]

lemma parseIntLoop_eq {bytes : List UInt8} (hbuf : buf.drop p = bytes) (hc : ¬c.toNat < 128)
    (h : Vlq.decodeRest w bytes = some (v, n)) (hfuel : bytes.length ≤ fuel) :
    parseIntLoop buf fuel c (UInt32.ofInt w) p =
      ⟨.ok (UInt32.ofInt v, p + n), List.range' p n⟩ := by
  induction bytes generalizing fuel p n c w with
  | nil => cases h
  | cons b bytes ih =>
    obtain ⟨hb, hrest⟩ := drop_cons hbuf
    obtain ⟨fuel, rfl⟩ : ∃ k, fuel = k + 1 := Nat.exists_eq_succ_of_ne_zero (by
      rintro rfl
      exact absurd hfuel (Nat.not_succ_le_zero _))
    rw [parseIntLoop, if_neg (fun h0 => hc ((and_0x80_eq_zero_iff c).mp h0)),
      Reads.bind_of_ok (result_readb hb), shiftLeft_or_ofInt]
    rw [Vlq.decodeRest] at h
    by_cases hlast : b.toNat < 128
    · rw [if_pos hlast] at h
      cases h
      rw [parseIntLoop_of_last hlast]
      rfl
    · rw [if_neg hlast] at h
      obtain ⟨r, hr, hn⟩ := Option.map_eq_some_iff.mp h
      cases hn
      rw [ih hrest hlast hr (Nat.le_of_succ_le_succ hfuel), Nat.add_assoc, Nat.add_comm 1,
        List.range'_succ]
      rfl

lemma parseInt_eq (h : Vlq.decode (buf.drop p) = some (v, n)) :
    parseInt buf p = ⟨.ok (UInt32.ofInt v, p + n), List.range' p n⟩ := by
  cases hbuf : buf.drop p with
  | nil =>
    rw [hbuf] at h
    cases h
  | cons b bytes =>
    obtain ⟨hb, hrest⟩ := drop_cons hbuf
    have hlen : bytes.length ≤ buf.length := by
      rw [← hrest, List.length_drop]
      exact Nat.sub_le _ _
    rw [hbuf, Vlq.decode] at h
    rw [parseInt, Reads.bind_of_ok (result_readb hb)]
    dsimp only
    rw [extend_first]
    by_cases hlast : b.toNat < 128
    · rw [if_pos hlast] at h
      cases h
      rw [parseIntLoop_of_last hlast]
      rfl
    · rw [if_neg hlast] at h
      obtain ⟨r, hr, hn⟩ := Option.map_eq_some_iff.mp h
      cases hn
      rw [parseIntLoop_eq hrest hlast hr hlen, Nat.add_assoc, Nat.add_comm 1, List.range'_succ]
      rfl

section Parsef

variable {base : UInt32} {maxend q r : Nat} {types : List ParamType} {args : List UInt32}

lemma commandParsef_int {t : IntType} {w : UInt32} (hp : p ≤ maxend)
    (hint : (parseInt buf p).result = .ok (w, q))
    (hrest : (commandParsef base buf maxend types q).result = .ok (args, r)) :
    (commandParsef base buf maxend (.int t :: types) p).result = .ok (w :: args, r) := by
  rw [commandParsef.eq_def]
  dsimp only
  rw [if_neg (Nat.not_lt.mpr hp), Reads.result_bind_of_ok hint]
  dsimp only
  rw [Reads.result_bind_of_ok hrest]
  rfl

lemma commandParsef_buffer (hp : p ≤ maxend) (hlen : buf[p]? = some c)
    (hend : p + 1 + c.toNat ≤ maxend)
    (hrest : (commandParsef base buf maxend types (p + 1 + c.toNat)).result = .ok (args, r)) :
    (commandParsef base buf maxend (.buffer :: types) p).result =
      .ok (c.toUInt32 :: commandEncodePtr base (p + 1) :: args, r) := by
  rw [commandParsef.eq_def]
  dsimp only
  rw [if_neg (Nat.not_lt.mpr hp), Reads.result_bind_of_ok (result_readb hlen),
    if_neg (Nat.not_lt.mpr hend), Reads.result_bind_of_ok hrest]
  rfl

end Parsef

lemma commandParseMsgid_of_lt (hc : buf[p]? = some c) (hlt : c.toNat < 128) :
    (commandParseMsgid buf p).result = .ok (c.toUInt16, p + 1) := by
  rw [commandParseMsgid, Reads.result_bind_of_ok (result_readb hc),
    if_neg (not_not.mpr ((and_0x80_eq_zero_iff c).mpr hlt))]
  rfl

lemma commandParseMsgid_of_ge {d : UInt8} (hc : buf[p]? = some c) (hge : ¬c.toNat < 128)
    (hd : buf[p + 1]? = some d) :
    (commandParseMsgid buf p).result =
      .ok (((c &&& 0x7f).toUInt16 <<< 7) ||| d.toUInt16, p + 2) := by
  rw [commandParseMsgid, Reads.result_bind_of_ok (result_readb hc),
    if_pos fun h => hge ((and_0x80_eq_zero_iff c).mp h), Reads.result_bind_of_ok (result_readb hd)]
  rfl

end ParseInt

/-- Where a parameter at `p` ends. Commands have no other parameters than integers and buffers. -/
def fieldEnd (buf : List UInt8) (p : Nat) : ParamType → Option Nat
  | .int _ => (Vlq.decode (buf.drop p)).map fun r => p + r.2
  | .buffer => buf[p]?.map fun len => p + 1 + len.toNat
  | _ => none

/-- Where the last of several parameters ends. -/
def layoutEnd (buf : List UInt8) : Nat → List ParamType → Option Nat
  | p, [] => some p
  | p, t :: types => (fieldEnd buf p t).bind fun q => layoutEnd buf q types

/-- The parameters at `p` end in the payload. -/
def Inside (buf : List UInt8) (msgend p : Nat) (types : List ParamType) : Prop :=
  ∃ q, layoutEnd buf p types = some q ∧ q ≤ msgend

/-- The parameters at `p` end behind the payload, and the last one is an integer that starts in the
payload or right behind it. A message id without parameters does so on its own. -/
def Straddles (buf : List UInt8) (msgend p : Nat) (types : List ParamType) : Prop :=
  types = [] ∧ msgend < p ∨
    ∃ init t q r, types = init ++ [.int t] ∧ layoutEnd buf p init = some q ∧ q ≤ msgend ∧
      fieldEnd buf q (.int t) = some r ∧ msgend < r

/-- The tests that `command_parsef` makes on the parameters at `p`. -/
def Passes (buf : List UInt8) (msgend : Nat) : Nat → List ParamType → Prop
  | _, [] => True
  | p, t :: types => p ≤ msgend ∧ ∃ q, fieldEnd buf p t = some q ∧ (t = .buffer → q ≤ msgend) ∧
      Passes buf msgend q types

section Layout

variable {buf : List UInt8} {msgend p q : Nat} {t : ParamType} {types : List ParamType}

lemma lt_fieldEnd (h : fieldEnd buf p t = some q) : p < q := by
  cases t with
  | int t =>
    obtain ⟨r, hr, rfl⟩ := Option.map_eq_some_iff.mp h
    have hpos := Vlq.decode_pos hr
    omega
  | buffer =>
    obtain ⟨len, -, rfl⟩ := Option.map_eq_some_iff.mp h
    omega
  | string => cases h
  | progmemBuffer => cases h

lemma le_layoutEnd (h : layoutEnd buf p types = some q) : p ≤ q := by
  induction types generalizing p with
  | nil =>
    cases h
    exact Nat.le_refl _
  | cons t types ih =>
    obtain ⟨r, hr, hq⟩ := Option.bind_eq_some_iff.mp h
    exact Nat.le_trans (Nat.le_of_lt (lt_fieldEnd hr)) (ih hq)

lemma layoutEnd_cons (h : fieldEnd buf p t = some q) :
    layoutEnd buf p (t :: types) = layoutEnd buf q types := by
  rw [layoutEnd, h, Option.bind_some]

lemma inside_cons_iff (h : fieldEnd buf p t = some q) :
    Inside buf msgend p (t :: types) ↔ Inside buf msgend q types := by
  unfold Inside
  rw [layoutEnd_cons h]

lemma straddles_cons_iff (h : fieldEnd buf p t = some q) (hne : types ≠ []) :
    Straddles buf msgend p (t :: types) ↔ Straddles buf msgend q types := by
  constructor
  · rintro (⟨hnil, -⟩ | ⟨init, t', e, r, heq, he, hle, hr, hlt⟩)
    · cases hnil
    · cases init with
      | nil =>
        rw [List.nil_append, List.cons.injEq] at heq
        exact absurd heq.2 hne
      | cons t₀ init =>
        rw [List.cons_append, List.cons.injEq] at heq
        obtain ⟨rfl, rfl⟩ := heq
        rw [layoutEnd_cons h] at he
        exact Or.inr ⟨init, t', e, r, rfl, he, hle, hr, hlt⟩
  · rintro (⟨hnil, -⟩ | ⟨init, t', e, r, rfl, he, hle, hr, hlt⟩)
    · exact absurd hnil hne
    · refine Or.inr ⟨t :: init, t', e, r, rfl, ?_, hle, hr, hlt⟩
      rw [layoutEnd_cons h, he]

lemma inside_single_iff (h : fieldEnd buf p t = some q) :
    Inside buf msgend p [t] ↔ q ≤ msgend := by
  rw [inside_cons_iff h]
  constructor
  · rintro ⟨r, hr, hle⟩
    cases hr
    exact hle
  · intro hle
    exact ⟨q, rfl, hle⟩

lemma straddles_single_iff (h : fieldEnd buf p t = some q) :
    Straddles buf msgend p [t] ↔ t ≠ .buffer ∧ p ≤ msgend ∧ msgend < q := by
  constructor
  · rintro (⟨hnil, -⟩ | ⟨init, t', e, r, heq, he, hle, hr, hlt⟩)
    · cases hnil
    · obtain ⟨rfl, rfl⟩ : init = [] ∧ .int t' = t := by
        simpa using List.append_eq_cons_iff.mp heq.symm
      cases he
      rw [h] at hr
      cases hr
      exact ⟨nofun, hle, hlt⟩
  · rintro ⟨hne, hle, hlt⟩
    cases t with
    | int t => exact Or.inr ⟨[], t, p, q, rfl, rfl, hle, h, hlt⟩
    | buffer => exact absurd rfl hne
    | string => cases h
    | progmemBuffer => cases h

lemma Inside.start_le (h : Inside buf msgend p types) : p ≤ msgend := by
  obtain ⟨q, hq, hle⟩ := h
  exact Nat.le_trans (le_layoutEnd hq) hle

lemma Straddles.start_le (h : Straddles buf msgend p types) (hne : types ≠ []) : p ≤ msgend := by
  rcases h with ⟨hnil, -⟩ | ⟨init, t, q, r, -, hq, hle, -⟩
  · exact absurd hnil hne
  · exact Nat.le_trans (le_layoutEnd hq) hle

lemma not_inside_of_none (h : fieldEnd buf p t = none) : ¬Inside buf msgend p (t :: types) := by
  rintro ⟨q, hq, -⟩
  rw [layoutEnd, h] at hq
  cases hq

lemma not_straddles_of_none (h : fieldEnd buf p t = none) :
    ¬Straddles buf msgend p (t :: types) := by
  rintro (⟨hnil, -⟩ | ⟨init, t', e, r, heq, he, hle, hr, hlt⟩)
  · cases hnil
  · cases init with
    | nil =>
      cases heq
      cases he
      rw [h] at hr
      cases hr
    | cons t₀ init =>
      cases heq
      rw [layoutEnd, h] at he
      cases he

/-- The tests let through what lies in the payload, and what leaves it with a last integer. -/
lemma passes_iff : Passes buf msgend p types ↔
    Inside buf msgend p types ∨ Straddles buf msgend p types := by
  induction types generalizing p with
  | nil =>
    have hcases : p ≤ msgend ∨ msgend < p := Nat.lt_or_ge msgend p |>.symm
    refine ⟨fun _ => ?_, fun _ => trivial⟩
    rcases hcases with hle | hlt
    · exact Or.inl ⟨p, rfl, hle⟩
    · exact Or.inr (Or.inl ⟨rfl, hlt⟩)
  | cons t types ih =>
    cases hf : fieldEnd buf p t with
    | none =>
      have hno : ¬Passes buf msgend p (t :: types) := by
        rintro ⟨-, q, hq, -⟩
        rw [hf] at hq
        cases hq
      simp only [hno, not_inside_of_none hf, not_straddles_of_none hf, or_self]
    | some q =>
      have hpass : Passes buf msgend p (t :: types) ↔
          p ≤ msgend ∧ (t = .buffer → q ≤ msgend) ∧ Passes buf msgend q types := by
        rw [Passes, hf]
        simp only [Option.some.injEq, exists_eq_left']
      have hlt := lt_fieldEnd hf
      rw [hpass]
      by_cases hne : types = []
      · subst hne
        rw [inside_single_iff hf, straddles_single_iff hf]
        by_cases ht : t = .buffer
        · simp only [ht, Passes, forall_const, and_true, ne_eq, not_true_eq_false, false_and, or_false]
          omega
        · simp only [ht, Passes, false_implies, and_true, ne_eq, not_false_eq_true, true_and]
          omega
      · rw [inside_cons_iff hf, straddles_cons_iff hf hne, ih]
        constructor
        · rintro ⟨-, -, h⟩
          exact h
        · intro h
          have hq : q ≤ msgend := h.elim Inside.start_le fun h => h.start_le hne
          exact ⟨by omega, fun _ => hq, h⟩

lemma layoutEnd_append (types types' : List ParamType) :
    layoutEnd buf p (types ++ types') =
      (layoutEnd buf p types).bind fun q => layoutEnd buf q types' := by
  induction types generalizing p with
  | nil => rfl
  | cons t types ih =>
    rw [List.cons_append, layoutEnd, layoutEnd, Option.bind_assoc]
    congr 1
    funext q
    exact ih

lemma Straddles.lt_layoutEnd (h : Straddles buf msgend p types)
    (hq : layoutEnd buf p types = some q) : msgend < q := by
  rcases h with ⟨rfl, hlt⟩ | ⟨init, t, e, r, rfl, he, -, hr, hlt⟩
  · cases hq
    exact hlt
  · rw [layoutEnd_append, he, Option.bind_some, layoutEnd_cons hr] at hq
    cases hq
    exact hlt

lemma Straddles.not_inside (h : Straddles buf msgend p types) : ¬Inside buf msgend p types := by
  rintro ⟨q, hq, hle⟩
  exact absurd hle (Nat.not_le.mpr (h.lt_layoutEnd hq))

end Layout

end KlipperMcu.Wire
