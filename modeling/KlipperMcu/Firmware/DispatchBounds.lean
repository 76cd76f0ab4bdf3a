import KlipperMcu.Firmware.Dispatch

/-!
# What command_dispatch reads and calls

Dispatching a block that `command_find_block` has accepted reads nothing outside of the block. The
handlers that it calls have their command in the payload, except for a command that leaves the
payload with its last integer or with its message id.
-/

namespace KlipperMcu.Wire

open Lib

/-- A block with its payload up to `msgend` ends with a SYNC byte. -/
structure Terminated (buf : List UInt8) (msgend : Nat) : Prop where
  last : buf[msgend + 2]? = some messageSync

section Parse

variable {buf : List UInt8} {msgend p : Nat} {base : UInt32}

lemma terminated_of_valid {msglen : Nat} (h : checkBlock buf = .valid msglen) :
    Terminated buf (msglen - messageTrailerSize) := by
  obtain ⟨-, hmin, -, hlen, hsync⟩ := checkBlock_valid h
  unfold messageMin at hmin
  have hlast : msglen - 1 < buf.length := by omega
  rw [List.getD_eq_getElem?_getD, List.getElem?_eq_getElem hlast, Option.getD_some] at hsync
  refine ⟨?_⟩
  rw [show msglen - messageTrailerSize + 2 = msglen - 1 by unfold messageTrailerSize; omega,
    List.getElem?_eq_getElem hlast, hsync]

lemma Terminated.le_length (h : Terminated buf msgend) :
    msgend + messageTrailerSize ≤ buf.length := by
  obtain ⟨hlt, -⟩ := List.getElem?_eq_some_iff.mp h.last
  exact hlt

lemma Terminated.decode (h : Terminated buf msgend) (hp : p < msgend + messageTrailerSize) :
    ∃ v n, Vlq.decode (buf.drop p) = some (v, n) ∧ p + n ≤ msgend + messageTrailerSize := by
  unfold messageTrailerSize at hp ⊢
  have hlast : (buf.drop p)[msgend + 2 - p]? = some messageSync := by
    rw [List.getElem?_drop, show p + (msgend + 2 - p) = msgend + 2 by omega, h.last]
  obtain ⟨v, n, hv, hn⟩ := Vlq.decode_of_last hlast (by decide)
  exact ⟨v, n, hv, by omega⟩

lemma Terminated.readb (h : Terminated buf msgend) (hp : p < msgend + messageTrailerSize) {E : Stop → Prop} :
    Reads.Sat (readb buf p) (· < msgend + messageTrailerSize) (fun b => buf[p]? = some b) E :=
  Reads.Sat.readAt (Nat.lt_of_lt_of_le hp h.le_length) hp

lemma parseInt_sat (h : Terminated buf msgend) (hp : p < msgend + messageTrailerSize) (t : IntType)
    {E : Stop → Prop} :
    Reads.Sat (parseInt buf p) (· < msgend + messageTrailerSize)
      (fun r => fieldEnd buf p (.int t) = some r.2) E := by
  obtain ⟨v, n, hv, hn⟩ := h.decode hp
  rw [parseInt_eq hv]
  refine ⟨?_, ?_, nofun⟩
  · intro i hi
    obtain ⟨-, hlt⟩ := List.mem_range'_1.mp hi
    exact Nat.lt_of_lt_of_le hlt hn
  · intro r hr
    cases hr
    rw [fieldEnd, hv]
    rfl

lemma commandParsef_sat (h : Terminated buf msgend) (types : List ParamType) (p : Nat) :
    Reads.Sat (commandParsef base buf msgend types p) (· < msgend + messageTrailerSize)
      (fun r => Passes buf msgend p types ∧ layoutEnd buf p types = some r.2)
      (fun e => e = .commandParserError ∧ ¬Passes buf msgend p types) := by
  induction types generalizing p with
  | nil =>
    rw [commandParsef]
    exact Reads.Sat.pure ⟨trivial, rfl⟩
  | cons t types ih =>
    rw [commandParsef.eq_def]
    dsimp only
    by_cases hp : p > msgend
    · rw [if_pos hp]
      exact Reads.Sat.stop ⟨rfl, fun hpass => absurd hpass.1 (Nat.not_le.mpr hp)⟩
    rw [if_neg hp]
    have hlt : p < msgend + messageTrailerSize := by
      unfold messageTrailerSize
      omega
    cases t with
    | int t =>
      apply Reads.Sat.bind (parseInt_sat h hlt t)
      rintro ⟨v, q⟩ hq
      have hpass : Passes buf msgend p (.int t :: types) ↔
          Passes buf msgend q types := by
        rw [Passes, hq]
        simp [Nat.not_lt.mp hp]
      rw [hpass, layoutEnd_cons hq]
      apply Reads.Sat.bind (ih q)
      rintro ⟨args, r⟩ hr
      exact Reads.Sat.pure hr
    | buffer =>
      apply Reads.Sat.bind (h.readb hlt)
      intro len hlen
      have hq : fieldEnd buf p .buffer = some (p + 1 + len.toNat) := by
        rw [fieldEnd, hlen]
        rfl
      have hpass : Passes buf msgend p (.buffer :: types) ↔
          p + 1 + len.toNat ≤ msgend ∧
            Passes buf msgend (p + 1 + len.toNat) types := by
        rw [Passes, hq]
        simp [Nat.not_lt.mp hp]
      rw [hpass, layoutEnd_cons hq]
      by_cases hend : p + 1 + len.toNat > msgend
      · rw [if_pos hend]
        exact Reads.Sat.stop ⟨rfl, fun hno => absurd hno.1 (Nat.not_le.mpr hend)⟩
      · rw [if_neg hend]
        have hle := Nat.not_lt.mp hend
        simp only [hle, true_and]
        apply Reads.Sat.bind (ih _)
        rintro ⟨args, r⟩ hr
        exact Reads.Sat.pure hr
    | string =>
      refine Reads.Sat.stop ⟨rfl, ?_⟩
      rintro ⟨-, q, hq, -⟩
      cases hq
    | progmemBuffer =>
      refine Reads.Sat.stop ⟨rfl, ?_⟩
      rintro ⟨-, q, hq, -⟩
      cases hq

end Parse

/-- The message id at `p` is one of a command in the table, whose parameters start at `q`. -/
def CommandAt {φ : Type} (index : List (CommandParser φ)) (buf : List UInt8) (p : Nat)
    (cp : CommandParser φ) (q : Nat) : Prop :=
  ∃ cmdid, (commandParseMsgid buf p).result = .ok (cmdid, q) ∧
    (commandLookupParser index cmdid).result = .ok cp

section Command

variable {φ : Type} {index : List (CommandParser φ)} {buf : List UInt8} {msgend p q q' : Nat}
  {base : UInt32} {cp cp' : CommandParser φ}

lemma CommandAt.unique (h : CommandAt index buf p cp q) (h' : CommandAt index buf p cp' q') :
    cp = cp' ∧ q = q' := by
  obtain ⟨cmdid, hid, hcp⟩ := h
  obtain ⟨cmdid', hid', hcp'⟩ := h'
  rw [hid] at hid'
  cases hid'
  rw [hcp] at hcp'
  cases hcp'
  exact ⟨rfl, rfl⟩

lemma commandParseMsgid_sat (h : Terminated buf msgend) (hp : p < msgend)
    {E : Stop → Prop} :
    Reads.Sat (commandParseMsgid buf p) (· < msgend + messageTrailerSize)
      (fun r => (commandParseMsgid buf p).result = .ok r ∧ p < r.2) E := by
  have hlt : p < msgend + messageTrailerSize ∧ p + 1 < msgend + messageTrailerSize := by
    unfold messageTrailerSize
    omega
  have hsat : Reads.Sat (commandParseMsgid buf p) (· < msgend + messageTrailerSize) (fun r => p < r.2) E := by
    apply Reads.Sat.bind (h.readb hlt.1)
    intro c _
    split
    · apply Reads.Sat.bind (h.readb hlt.2)
      intro d _
      exact Reads.Sat.pure (by omega)
    · exact Reads.Sat.pure (Nat.lt_succ_self p)
  exact ⟨hsat.reads, fun r hr => ⟨hr, hsat.value r hr⟩, hsat.error⟩

lemma commandLookupParser_sat (cmdid : UInt16) {R : Nat → Prop} :
    Reads.Sat (commandLookupParser index cmdid) R
      (fun cp => (commandLookupParser index cmdid).result = .ok cp)
      (fun e => e = .invalidCommand ∧ ∀ cp, (commandLookupParser index cmdid).result ≠ .ok cp) := by
  unfold commandLookupParser
  split
  · exact Reads.Sat.stop ⟨rfl, nofun⟩
  · split
    · exact Reads.Sat.stop ⟨rfl, nofun⟩
    · exact Reads.Sat.pure rfl

lemma parseCommand_sat (index : List (CommandParser φ)) (base : UInt32)
    (h : Terminated buf msgend) (hp : p < msgend) :
    Reads.Sat (parseCommand index base buf msgend p) (· < msgend + messageTrailerSize)
      (fun r => ∃ q, CommandAt index buf p r.1 q ∧ p < r.2.2 ∧
        Passes buf msgend q r.1.paramTypes ∧
        layoutEnd buf q r.1.paramTypes = some r.2.2)
      (fun e => e = .invalidCommand ∧ (∀ cp q, ¬CommandAt index buf p cp q) ∨
        e = .commandParserError ∧ ∀ cp q, CommandAt index buf p cp q →
          ¬Passes buf msgend q cp.paramTypes) := by
  apply Reads.Sat.bind (commandParseMsgid_sat h hp)
  rintro ⟨cmdid, q⟩ ⟨hid, hq⟩
  have hlookup : Reads.Sat (commandLookupParser index cmdid) (· < msgend + messageTrailerSize)
      (fun cp => CommandAt index buf p cp q)
      (fun e => e = .invalidCommand ∧ ∀ cp q, ¬CommandAt index buf p cp q) := by
    refine (commandLookupParser_sat cmdid).mono (fun cp hcp => ⟨cmdid, hid, hcp⟩) ?_
    rintro e ⟨rfl, hno⟩
    refine ⟨rfl, ?_⟩
    rintro cp q' ⟨cmdid', hid', hcp⟩
    rw [hid] at hid'
    cases hid'
    exact hno cp hcp
  apply Reads.Sat.bind (hlookup.mono (fun _ hcp => hcp) fun e he => Or.inl he)
  intro cp hcp
  apply Reads.Sat.bind (Q := fun r => Passes buf msgend q cp.paramTypes ∧
    layoutEnd buf q cp.paramTypes = some r.2)
  · refine (commandParsef_sat h cp.paramTypes q).mono (fun _ hr => hr) ?_
    rintro e ⟨rfl, hno⟩
    refine Or.inr ⟨rfl, fun cp' q' hcp' => ?_⟩
    obtain ⟨rfl, rfl⟩ := hcp.unique hcp'
    exact hno
  · rintro ⟨args, r⟩ ⟨hpass, hr⟩
    exact Reads.Sat.pure ⟨q, hcp, Nat.lt_of_lt_of_le hq (le_layoutEnd hr), hpass, hr⟩

end Command

/-- The loop of `command_dispatch` comes from one position and state to another. -/
inductive Visits {σ φ : Type} (env : Env σ φ) (index : List (CommandParser φ)) (base : UInt32)
    (buf : List UInt8) (msgend : Nat) : Nat → σ → Nat → σ → Prop
  | here (p : Nat) (s : σ) : Visits env index base buf msgend p s p s
  | next {p q r : Nat} {s t : σ} (hp : p < msgend)
      (hq : (dispatchRound env index base buf msgend p s).next = .ok q)
      (h : Visits env index base buf msgend q (dispatchRound env index base buf msgend p s).state r t) :
      Visits env index base buf msgend p s r t

section Loop

variable {σ φ : Type} {env : Env σ φ} {index : List (CommandParser φ)} {base : UInt32}
  {buf : List UInt8} {msgend p q : Nat} {s t : σ} {cp : CommandParser φ}

lemma dispatchRound_of_error {msgend : Nat} {e : Stop}
    (h : (parseCommand index base buf msgend p).result = .error e) :
    dispatchRound env index base buf msgend p s =
      ⟨s, .error e, [], (parseCommand index base buf msgend p).reads⟩ := by
  rw [dispatchRound, h]

lemma dispatchRound_of_ok (env : Env σ φ) (s : σ) {msgend : Nat} {args : List UInt32}
    (h : (parseCommand index base buf msgend p).result = .ok (cp, args, q)) :
    (dispatchRound env index base buf msgend p s).reads =
        (parseCommand index base buf msgend p).reads ∧
      ((dispatchRound env index base buf msgend p s).next = .ok q ∨
        (dispatchRound env index base buf msgend p s).next = .error .handlerShutdown) ∧
      ∀ call ∈ (dispatchRound env index base buf msgend p s).calls, call = ⟨p, q, cp, args⟩ := by
  rw [dispatchRound, h]
  dsimp only
  split
  · exact ⟨rfl, Or.inl rfl, nofun⟩
  · refine ⟨rfl, ?_, fun call hcall => List.mem_singleton.mp hcall⟩
    dsimp only
    split
    · exact Or.inl rfl
    · exact Or.inr rfl

/-- What a round can do: it reads in the block, it goes on behind where it was, and it calls the
handler of a command that has passed the tests. -/
lemma dispatchRound_spec (env : Env σ φ) (index : List (CommandParser φ)) (base : UInt32) (s : σ)
    (h : Terminated buf msgend) (hp : p < msgend) :
    let r := dispatchRound env index base buf msgend p s
    (∀ i ∈ r.reads, i < msgend + messageTrailerSize) ∧ r.next ≠ .error .wild ∧ (∀ q, r.next = .ok q → p < q) ∧
      ∀ call ∈ r.calls, call.start = p ∧ ∃ q, CommandAt index buf p call.parser q ∧
        Passes buf msgend q call.parser.paramTypes := by
  intro r
  have hsat := parseCommand_sat index base h hp
  cases hr : (parseCommand index base buf msgend p).result with
  | error e =>
    have heq : r = _ := dispatchRound_of_error hr
    have he := hsat.error e hr
    rw [heq]
    refine ⟨hsat.reads, ?_, nofun, nofun⟩
    rintro ⟨⟩
    rcases he with ⟨hwild, -⟩ | ⟨hwild, -⟩ <;> cases hwild
  | ok c =>
    obtain ⟨cp, args, q⟩ := c
    obtain ⟨hreads, hnext, hcalls⟩ := dispatchRound_of_ok env s hr
    obtain ⟨q', hfound, hlt, hpass, -⟩ := hsat.value _ hr
    refine ⟨?_, ?_, ?_, ?_⟩
    · intro i hi
      exact hsat.reads i (hreads ▸ hi)
    · intro hwild
      rcases hnext with hnext | hnext
      · cases hnext.symm.trans hwild
      · cases hnext.symm.trans hwild
    · intro q₁ hq₁
      rcases hnext with hnext | hnext
      · cases hnext.symm.trans hq₁
        exact hlt
      · cases hnext.symm.trans hq₁
    · intro call hcall
      rw [hcalls call hcall]
      exact ⟨rfl, q', hfound, hpass⟩

lemma dispatchLoop_spec (h : Terminated buf msgend) (env : Env σ φ)
    (index : List (CommandParser φ)) (base : UInt32) (fuel p : Nat) (s : σ) :
    let d := dispatchLoop env index base buf msgend fuel p s
    (∀ i ∈ d.reads, i < msgend + messageTrailerSize) ∧ d.stop ≠ some .wild ∧
      ∀ call ∈ d.calls, call.start < msgend ∧
        (∃ t, Visits env index base buf msgend p s call.start t) ∧
        ∃ q, CommandAt index buf call.start call.parser q ∧
          Passes buf msgend q call.parser.paramTypes := by
  induction fuel generalizing p s with
  | zero => exact ⟨nofun, nofun, nofun⟩
  | succ fuel ih =>
    rw [dispatchLoop]
    by_cases hp : p < msgend
    · rw [if_pos hp]
      obtain ⟨hreads, hwild, -, hcalls⟩ :=
        dispatchRound_spec env index base s h hp
      cases hn : (dispatchRound env index base buf msgend p s).next with
      | error e =>
        dsimp only
        rw [hn]
        refine ⟨hreads, ?_, ?_⟩
        · rintro ⟨⟩
          exact hwild hn
        · intro call hcall
          obtain ⟨hstart, hcp⟩ := hcalls call hcall
          rw [hstart]
          exact ⟨hp, ⟨s, .here p s⟩, hcp⟩
      | ok q =>
        dsimp only
        rw [hn]
        obtain ⟨hreads', hwild', hcalls'⟩ :=
          ih q (dispatchRound env index base buf msgend p s).state
        refine ⟨?_, hwild', ?_⟩
        · intro i hi
          rcases List.mem_append.mp hi with hi | hi
          · exact hreads i hi
          · exact hreads' i hi
        · intro call hcall
          rcases List.mem_append.mp hcall with hcall | hcall
          · obtain ⟨hstart, hcp⟩ := hcalls call hcall
            rw [hstart]
            exact ⟨hp, ⟨s, .here p s⟩, hcp⟩
          · obtain ⟨hlt, ⟨t, hvisit⟩, hcp⟩ := hcalls' call hcall
            exact ⟨hlt, ⟨t, .next hp hn hvisit⟩, hcp⟩
    · rw [if_neg hp]
      exact ⟨nofun, nofun, nofun⟩

lemma dispatchLoop_of_visits (h : Terminated buf msgend) {fuel : Nat}
    (hvisit : Visits env index base buf msgend p s q t)
    (hfuel : msgend - p ≤ fuel) :
    p ≤ q ∧ ∃ fuel' calls, msgend - q ≤ fuel' ∧
      (∀ call ∈ calls, call.start < q) ∧
      (dispatchLoop env index base buf msgend fuel p s).calls = calls ++
        (dispatchLoop env index base buf msgend fuel' q t).calls ∧
      (dispatchLoop env index base buf msgend fuel p s).stop =
        (dispatchLoop env index base buf msgend fuel' q t).stop := by
  induction hvisit generalizing fuel with
  | here p s => exact ⟨Nat.le_refl p, fuel, [], hfuel, nofun, rfl, rfl⟩
  | @next p q r s t hp hq hvisit ih =>
    obtain ⟨fuel, rfl⟩ : ∃ k, fuel = k + 1 := Nat.exists_eq_succ_of_ne_zero (by omega)
    obtain ⟨-, -, hlt, hcalls⟩ :=
      dispatchRound_spec env index base s h hp
    have hpq := hlt q hq
    obtain ⟨hqr, fuel', calls, hfuel', hstart, hcalls', hstop⟩ := @ih fuel (by omega)
    refine ⟨by omega, fuel', (dispatchRound env index base buf msgend p s).calls ++ calls, hfuel', ?_, ?_, ?_⟩
    · intro call hcall
      rcases List.mem_append.mp hcall with hcall | hcall
      · rw [(hcalls call hcall).1]
        omega
      · exact hstart call hcall
    · rw [dispatchLoop, if_pos hp]
      dsimp only
      rw [hq, List.append_assoc, ← hcalls']
      rfl
    · rw [dispatchLoop, if_pos hp]
      dsimp only
      rw [hq, ← hstop]
      rfl

lemma parseCommand_of_passes (base : UInt32) (h : Terminated buf msgend) (hp : p < msgend)
    (hcp : CommandAt index buf p cp q) (hpass : Passes buf msgend q cp.paramTypes) :
    ∃ args r, (parseCommand index base buf msgend p).result = .ok (cp, args, r) ∧
      layoutEnd buf q cp.paramTypes = some r := by
  have hsat := parseCommand_sat index base h hp
  cases hr : (parseCommand index base buf msgend p).result with
  | error e =>
    rcases hsat.error e hr with ⟨-, hno⟩ | ⟨-, hno⟩
    · exact absurd hcp (hno cp q)
    · exact absurd hpass (hno cp q hcp)
  | ok c =>
    obtain ⟨cp', args, r⟩ := c
    obtain ⟨q', hcp', -, -, hend⟩ := hsat.value _ hr
    obtain ⟨rfl, rfl⟩ := hcp.unique hcp'
    exact ⟨args, r, rfl, hend⟩

lemma parseCommand_of_not_passes (base : UInt32) (h : Terminated buf msgend) (hp : p < msgend)
    (hcp : CommandAt index buf p cp q) (hpass : ¬Passes buf msgend q cp.paramTypes) :
    (parseCommand index base buf msgend p).result = .error .commandParserError := by
  have hsat := parseCommand_sat index base h hp
  cases hr : (parseCommand index base buf msgend p).result with
  | error e =>
    rcases hsat.error e hr with ⟨-, hno⟩ | ⟨rfl, -⟩
    · exact absurd hcp (hno cp q)
    · rfl
  | ok c =>
    obtain ⟨q', hcp', -, hpass', -⟩ := hsat.value _ hr
    obtain ⟨rfl, rfl⟩ := hcp.unique hcp'
    exact absurd hpass' hpass

lemma dispatchLoop_of_not_passes {fuel : Nat} (h : Terminated buf msgend)
    (hvisit : Visits env index base buf msgend p s q t) (hq : q < msgend)
    (hfuel : msgend - p ≤ fuel) {r : Nat} (hcp : CommandAt index buf q cp r)
    (hpass : ¬Passes buf msgend r cp.paramTypes) :
    (dispatchLoop env index base buf msgend fuel p s).stop = some .commandParserError ∧
      ∀ call ∈ (dispatchLoop env index base buf msgend fuel p s).calls, call.start ≠ q := by
  obtain ⟨-, fuel', calls, hfuel', hstart, hcalls, hstop⟩ := dispatchLoop_of_visits h hvisit hfuel
  obtain ⟨fuel', rfl⟩ : ∃ k, fuel' = k + 1 := Nat.exists_eq_succ_of_ne_zero (by omega)
  have hround : dispatchRound env index base buf msgend q t = _ :=
    dispatchRound_of_error (parseCommand_of_not_passes base h hq hcp hpass)
  rw [hcalls, hstop, dispatchLoop, if_pos hq, hround]
  refine ⟨rfl, ?_⟩
  intro call hcall
  rw [List.append_nil] at hcall
  exact Nat.ne_of_lt (hstart call hcall)

lemma dispatchLoop_of_straddles {fuel : Nat} (h : Terminated buf msgend)
    (hvisit : Visits env index base buf msgend p s q t) (hq : q < msgend)
    (hfuel : msgend - p ≤ fuel) {r : Nat} (hcp : CommandAt index buf q cp r)
    (hpass : Straddles buf msgend r cp.paramTypes) :
    (dispatchLoop env index base buf msgend fuel p s).stop ≠ some .commandParserError := by
  obtain ⟨-, fuel', calls, hfuel', -, -, hstop⟩ := dispatchLoop_of_visits h hvisit hfuel
  obtain ⟨fuel', rfl⟩ : ∃ k, fuel' = k + 1 := Nat.exists_eq_succ_of_ne_zero (by omega)
  obtain ⟨args, e, hparse, hend⟩ :=
    parseCommand_of_passes base h hq hcp (passes_iff.mpr (Or.inr hpass))
  have hlt : msgend < e := hpass.lt_layoutEnd hend
  obtain ⟨-, hnext, -⟩ := dispatchRound_of_ok env t hparse
  rw [hstop, dispatchLoop, if_pos hq]
  dsimp only
  rcases hnext with hnext | hnext
  · rw [hnext]
    cases fuel' with
    | zero => exact nofun
    | succ fuel' =>
      dsimp only
      rw [dispatchLoop, if_neg (by omega)]
      exact nofun
  · rw [hnext]
    exact nofun

end Loop

/-- The handlers that are called have their command in the payload, and a command that the loop
comes to and that is not in the payload makes the firmware shut down before its handler is called. -/
def Confined {σ φ : Type} (env : Env σ φ) (index : List (CommandParser φ)) (base : UInt32)
    (buf : List UInt8) (msglen : Nat) (s : σ) : Prop :=
  let msgend := msglen - messageTrailerSize
  let d := commandDispatch env index base buf msglen s
  (∀ call ∈ d.calls, messageHeaderSize ≤ call.start ∧
      ∃ q, CommandAt index buf call.start call.parser q ∧ Inside buf msgend q call.parser.paramTypes) ∧
    ∀ p t cp q, Visits env index base buf msgend messageHeaderSize s p t → p < msgend →
      CommandAt index buf p cp q → ¬Inside buf msgend q cp.paramTypes →
        d.stop = some .commandParserError ∧ ∀ call ∈ d.calls, call.start ≠ p

section Block

variable {σ φ : Type} {buf : List UInt8}

/-- Dispatching an accepted block reads nothing outside of the block. -/
theorem commandDispatch_reads (sync : Sync) (h : (commandFindBlock sync buf).ret = .block) (env : Env σ φ)
    (index : List (CommandParser φ)) (base : UInt32) (s : σ) :
    let msglen := (commandFindBlock sync buf).popCount
    let d := commandDispatch env index base buf msglen s
    (∀ i ∈ d.reads, i < msglen) ∧ d.stop ≠ some .wild := by
  intro msglen d
  obtain ⟨-, hvalid, -⟩ := commandFindBlock_block h
  obtain ⟨hmin, -⟩ := length_of_checkBlock_valid hvalid
  have hend : msglen - messageTrailerSize + messageTrailerSize = msglen :=
    Nat.sub_add_cancel (Nat.le_trans (by decide) hmin)
  have hspec := dispatchLoop_spec (terminated_of_valid hvalid) env index base msglen messageHeaderSize s
  rw [hend] at hspec
  exact ⟨hspec.1, hspec.2.1⟩

/-- The table of a firmware that only knows `identify`. -/
def identifyTable : List (CommandParser Unit) :=
  [buildCommandParser [] false (), buildCommandParser [.int .uint32, .int .byte] true ()]

/-- A firmware that is not shut down and whose handlers return. -/
def running : Env Unit Unit := ⟨fun _ => false, id, id, fun _ _ s => (s, true)⟩

theorem commandDispatch_reads_identify :
    (commandFindBlock ⟨false, false, 0x10⟩ (commandAddFrame 0x10 [1, 0])).ret = .block ∧
      ∀ i ∈ (commandDispatch running identifyTable 0 (commandAddFrame 0x10 [1, 0]) 7 ()).reads,
        i < 7 :=
  ⟨by decide, (commandDispatch_reads ⟨false, false, 0x10⟩ (by decide) running identifyTable 0 ()).1⟩

/-- Commands stay in the payload, or shut the firmware down, exactly when none of them leaves the
payload with a last integer that starts in it or right behind it, or with its message id alone. -/
theorem confined_iff (sync : Sync) (h : (commandFindBlock sync buf).ret = .block) (env : Env σ φ)
    (index : List (CommandParser φ)) (base : UInt32) (s : σ) :
    let msglen := (commandFindBlock sync buf).popCount
    let msgend := msglen - messageTrailerSize
    Confined env index base buf msglen s ↔
      ∀ p t cp q, Visits env index base buf msgend messageHeaderSize s p t → p < msgend →
        CommandAt index buf p cp q → ¬Straddles buf msgend q cp.paramTypes := by
  intro msglen msgend
  obtain ⟨-, hvalid, -⟩ := commandFindBlock_block h
  have hterm : Terminated buf msgend := terminated_of_valid hvalid
  have hfuel : msgend - messageHeaderSize ≤ msglen := by omega
  constructor
  · rintro ⟨-, hpast⟩ p t cp q hvisit hp hcp hstraddles
    have hstop := (hpast p t cp q hvisit hp hcp hstraddles.not_inside).1
    exact dispatchLoop_of_straddles hterm hvisit hp hfuel hcp hstraddles hstop
  · intro hnone
    refine ⟨?_, ?_⟩
    · intro call hcall
      obtain ⟨-, -, hcalls⟩ := dispatchLoop_spec hterm env index base msglen messageHeaderSize s
      obtain ⟨hlt, ⟨t, hvisit⟩, q, hcp, hpass⟩ := hcalls call hcall
      have hinside := (passes_iff.mp hpass).resolve_right (hnone _ t _ q hvisit hlt hcp)
      exact ⟨(dispatchLoop_of_visits hterm hvisit hfuel).1, q, hcp, hinside⟩
    · intro p t cp q hvisit hp hcp hout
      have hpass : ¬Passes buf msgend q cp.paramTypes := fun hpass =>
        (passes_iff.mp hpass).elim hout (hnone p t cp q hvisit hp hcp)
      exact dispatchLoop_of_not_passes hterm hvisit hp hfuel hcp hpass

end Block

lemma commandAt_identify {payload : List UInt8} {cp : CommandParser Unit} {q : Nat}
    (h : CommandAt identifyTable (commandAddFrame 0x10 (1 :: payload)) messageHeaderSize cp q) :
    cp = buildCommandParser [.int .uint32, .int .byte] true () ∧ q = 3 := by
  have h' : CommandAt identifyTable (commandAddFrame 0x10 (1 :: payload)) messageHeaderSize
      (buildCommandParser [.int .uint32, .int .byte] true ()) 3 := ⟨1, rfl, rfl⟩
  exact h.unique h'

/-- The host sends `identify` with its count. -/
theorem confined_identify :
    Confined running identifyTable 0 (commandAddFrame 0x10 [1, 0, 40]) 8 () := by
  apply (confined_iff ⟨false, false, 0x10⟩ (by decide) running identifyTable 0 ()).mpr
  intro p t cp q hvisit hp hcp hstraddles
  cases hvisit with
  | here =>
    obtain ⟨rfl, rfl⟩ := commandAt_identify hcp
    have hend : layoutEnd (commandAddFrame 0x10 [1, 0, 40]) 3 [.int .uint32, .int .byte] = some 5 := by
      decide
    exact absurd (hstraddles.lt_layoutEnd hend) (by decide)
  | @next _ r _ _ _ hlt hnext hvisit =>
    have hfive : (dispatchRound running identifyTable 0 (commandAddFrame 0x10 [1, 0, 40]) 5
        messageHeaderSize ()).next = .ok 5 := by decide +kernel
    cases hfive.symm.trans hnext
    cases hvisit with
    | here => exact absurd hp (by decide)
    | next hlt => exact absurd hlt (by decide)

/-- `identify` without its count: the count is read from the checksum, and the handler is called. -/
theorem not_confined_identify :
    (commandFindBlock ⟨false, false, 0x10⟩ (commandAddFrame 0x10 [1, 0])).ret = .block ∧
      ¬Confined running identifyTable 0 (commandAddFrame 0x10 [1, 0]) 7 () := by
  refine ⟨by decide, ?_⟩
  rintro ⟨hinside, -⟩
  have hcall : (⟨2, 6, buildCommandParser [.int .uint32, .int .byte] true (), [0, 9293]⟩ : Call Unit) ∈
      (commandDispatch running identifyTable 0 (commandAddFrame 0x10 [1, 0]) 7 ()).calls := by
    decide +kernel
  obtain ⟨-, q, hcp, e, hend, hle⟩ := hinside _ hcall
  obtain ⟨-, rfl⟩ := commandAt_identify hcp
  have hend' : layoutEnd (commandAddFrame 0x10 [1, 0]) 3 [.int .uint32, .int .byte] = some 6 := by
    decide
  cases hend.symm.trans hend'
  exact absurd hle (by decide)

end KlipperMcu.Wire
