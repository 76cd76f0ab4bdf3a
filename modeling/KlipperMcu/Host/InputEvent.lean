import KlipperMcu.Host.SerialQueue
import KlipperMcu.Lib.Buffer
import KlipperMcu.Lib.Run

/-!
# Input of the host

`input_event` of serialqueue.c. Each event stores the bytes of a read or of a CAN frame behind those
that are left over, and takes messages from the front of the buffer until `msgblock_check` asks for
more. After an error `msgblock_check` looks for the next SYNC, but only when it has the bytes of a
shortest message, so that what is left over depends on how the input was cut.
-/

namespace KlipperMcu.Serial

open Lib Wire

def inputSize : Nat := 4096

/-- The input side of `struct serialqueue`, with the messages given to `handle_message`. -/
structure InputState where
  clientId : Nat
  inputBuf : Nat → UInt8
  needSync : Bool
  inputPos : Nat
  bytesInvalid : UInt32
  delivered : List (List UInt8)

/-- What `input_event` reads. -/
inductive Read where
  | uart (bytes : List UInt8)
  | can (canId : Nat) (data : List UInt8)
deriving DecidableEq, Repr

/-- Stores bytes behind the others, unless they run past the buffer. -/
def InputState.store (s : InputState) (bytes : List UInt8) : Option InputState :=
  if s.inputPos + bytes.length > inputSize then none
  else
    some { s with
      inputBuf := Buffer.store s.inputBuf s.inputPos bytes
      inputPos := s.inputPos + bytes.length }

/-- Removes `len` bytes from the front. -/
def InputState.remove (s : InputState) (len : Nat) : InputState :=
  let inputPos := s.inputPos - len
  { s with
    inputPos := inputPos
    inputBuf := if inputPos ≠ 0 then Buffer.copy s.inputBuf 0 len inputPos else s.inputBuf }

def InputState.bytes (s : InputState) : List UInt8 := Buffer.slice s.inputBuf 0 s.inputPos

/-- The loop of `input_event`. -/
def inputLoop : Nat → InputState → Option InputState
  | 0, _ => none
  | fuel + 1, s =>
    match msgblockCheck s.needSync s.bytes with
    | (needSync, .needMore) => some { s with needSync := needSync }
    | (needSync, .message len) =>
      inputLoop fuel (InputState.remove { s with
        needSync := needSync
        delivered := s.delivered ++ [Buffer.slice s.inputBuf 0 len] } len)
    | (needSync, .skip len) =>
      inputLoop fuel (InputState.remove { s with
        needSync := needSync
        bytesInvalid := s.bytesInvalid + UInt32.ofNat len } len)

/-- `input_event`. There is no result if it writes past the buffer or does not return. -/
def inputEvent (s : InputState) : Read → Option InputState
  | .uart bytes => (s.store bytes).bind fun s => inputLoop (s.inputPos + 1) s
  | .can canId data =>
    if canId ≠ s.clientId + 1 then some s
    else (s.store data).bind fun s => inputLoop (s.inputPos + 1) s

/-- A read returns at least one byte and not more than the size it is given. A frame carries at most
8 bytes. -/
def ReadLegal (s : InputState) : Read → Prop
  | .uart bytes => 0 < bytes.length ∧ bytes.length ≤ inputSize - s.inputPos
  | .can _ data => data.length ≤ 8

def inputStart (clientId : Nat) (buf : Nat → UInt8) (needSync : Bool) : InputState :=
  ⟨clientId, buf, needSync, 0, 0, []⟩

/-- The bytes that a read brings for this client. -/
def Read.payload (clientId : Nat) : Read → List UInt8
  | .uart bytes => bytes
  | .can canId data => if canId ≠ clientId + 1 then [] else data

/-- How many bytes an error discards, and the new value of `need_sync`. -/
def skipToSync (buf : List UInt8) : Nat × Bool :=
  match buf.findIdx? (· == messageSync) with
  | some i => (i + 1, false)
  | none => (buf.length, true)

section Check

variable {needSync : Bool} {buf : List UInt8}

lemma msgblockCheck_eq (needSync : Bool) (buf : List UInt8) :
    msgblockCheck needSync buf =
      if buf.length < messageMin then (needSync, .needMore)
      else if needSync then ((skipToSync buf).2, .skip (skipToSync buf).1)
      else
        match checkBlock buf with
        | .more => (needSync, .needMore)
        | .bad => ((skipToSync buf).2, .skip (skipToSync buf).1)
        | .valid msglen => (needSync, .message msglen) := by
  unfold msgblockCheck skipToSync
  cases buf.findIdx? (· == messageSync) <;> rfl

lemma msgblockCheck_cases (needSync : Bool) (buf : List UInt8) :
    msgblockCheck needSync buf = (needSync, .needMore) ∧
        (buf.length < messageMin ∨ needSync = false ∧ checkBlock buf = .more) ∨
      msgblockCheck needSync buf = ((skipToSync buf).2, .skip (skipToSync buf).1) ∧
        messageMin ≤ buf.length ∧ (needSync = true ∨ checkBlock buf = .bad) ∨
      ∃ len, msgblockCheck needSync buf = (needSync, .message len) ∧
        needSync = false ∧ checkBlock buf = .valid len := by
  rw [msgblockCheck_eq]
  by_cases hlen : buf.length < messageMin
  · rw [if_pos hlen]
    exact Or.inl ⟨rfl, Or.inl hlen⟩
  · rw [if_neg hlen]
    cases needSync with
    | true => exact Or.inr (Or.inl ⟨rfl, Nat.not_lt.mp hlen, Or.inl rfl⟩)
    | false =>
      rw [if_neg Bool.false_ne_true]
      cases hc : checkBlock buf with
      | more => exact Or.inl ⟨rfl, Or.inr ⟨rfl, rfl⟩⟩
      | bad => exact Or.inr (Or.inl ⟨rfl, Nat.not_lt.mp hlen, Or.inr rfl⟩)
      | valid len => exact Or.inr (Or.inr ⟨len, rfl, rfl, rfl⟩)

lemma skipToSync_le (hne : buf ≠ []) : 0 < (skipToSync buf).1 ∧ (skipToSync buf).1 ≤ buf.length := by
  unfold skipToSync
  cases hi : buf.findIdx? (· == messageSync) with
  | none => exact ⟨List.length_pos_iff.mpr hne, Nat.le_refl _⟩
  | some i =>
    obtain ⟨hlt, -⟩ := List.findIdx?_eq_some_iff_getElem.mp hi
    exact ⟨Nat.succ_pos i, hlt⟩

/-- Where a SYNC is found does not depend on what follows, and without one the search goes on. -/
lemma skipToSync_append (buf more : List UInt8) :
    (skipToSync buf).2 = false ∧ skipToSync (buf ++ more) = skipToSync buf ∨
      skipToSync buf = (buf.length, true) ∧
        skipToSync (buf ++ more) = (buf.length + (skipToSync more).1, (skipToSync more).2) := by
  unfold skipToSync
  rw [List.findIdx?_append]
  cases buf.findIdx? (· == messageSync) with
  | some i => exact Or.inl ⟨rfl, rfl⟩
  | none =>
    refine Or.inr ⟨rfl, ?_⟩
    cases more.findIdx? (· == messageSync) with
    | none => exact congrArg (·, true) List.length_append
    | some i =>
      have hsum : i + buf.length + 1 = buf.length + (i + 1) := by omega
      exact congrArg (·, false) hsum

end Check

/-- `msgblock_check` as a finder of messages. -/
def messageFinder : Finder Bool UInt8 (List UInt8) where
  find needSync buf :=
    match msgblockCheck needSync buf with
    | (_, .needMore) => none
    | (needSync, .message len) => some (len, needSync, [buf.take len])
    | (needSync, .skip len) => some (len, needSync, [])
  progress {needSync buf n needSync' out} h := by
    rcases msgblockCheck_cases needSync buf with ⟨hc, -⟩ | ⟨hc, hlen, -⟩ | ⟨len, hc, -, hvalid⟩
    · rw [hc] at h
      cases h
    · rw [hc] at h
      cases h
      exact skipToSync_le (List.ne_nil_of_length_pos (Nat.lt_of_lt_of_le (by decide) hlen))
    · rw [hc] at h
      cases h
      obtain ⟨hmin, -, hle⟩ := length_of_checkBlock_valid hvalid
      exact ⟨Nat.lt_of_lt_of_le (by decide) hmin, hle⟩

/-- The same search without waiting for the bytes of a shortest message. -/
def eagerFinder : Finder Bool UInt8 (List UInt8) where
  find needSync buf :=
    if needSync = true ∧ buf ≠ [] then some ((skipToSync buf).1, (skipToSync buf).2, [])
    else
      match checkBlock buf with
      | .more => none
      | .bad => some ((skipToSync buf).1, (skipToSync buf).2, [])
      | .valid len => some (len, needSync, [buf.take len])
  progress {needSync buf n needSync' out} h := by
    split at h
    · rename_i hsync
      cases h
      exact skipToSync_le hsync.2
    · split at h
      · cases h
      · rename_i hbad
        cases h
        have hlen := length_of_checkBlock_bad hbad
        exact skipToSync_le (List.ne_nil_of_length_pos (Nat.lt_of_lt_of_le (by decide) hlen))
      · rename_i hvalid
        cases h
        obtain ⟨hmin, -, hle⟩ := length_of_checkBlock_valid hvalid
        exact ⟨Nat.lt_of_lt_of_le (by decide) hmin, hle⟩

section Finders

variable {needSync : Bool} {buf : List UInt8}

/-- The calls of the eager search that discard bytes. -/
def Skips (needSync : Bool) (buf : List UInt8) : Prop :=
  needSync = true ∧ buf ≠ [] ∨ checkBlock buf = .bad

lemma find_of_skips (h : Skips needSync buf) :
    eagerFinder.find needSync buf = some ((skipToSync buf).1, (skipToSync buf).2, []) := by
  unfold eagerFinder
  dsimp only
  by_cases hsync : needSync = true ∧ buf ≠ []
  · rw [if_pos hsync]
  · rw [if_neg hsync, h.resolve_left hsync]

lemma find_of_valid {len : Nat} (hs : needSync = false) (h : checkBlock buf = .valid len) :
    eagerFinder.find needSync buf = some (len, needSync, [buf.take len]) := by
  unfold eagerFinder
  dsimp only
  rw [if_neg (fun hsync => Bool.false_ne_true (hs.symm.trans hsync.1)), h]

lemma find_eq_none (hskip : ¬Skips needSync buf) (h : checkBlock buf = .more) :
    eagerFinder.find needSync buf = none := by
  unfold eagerFinder
  dsimp only
  rw [if_neg (fun hsync => hskip (Or.inl hsync)), h]

lemma Skips.append (h : Skips needSync buf) (more : List UInt8) : Skips needSync (buf ++ more) := by
  rcases h with ⟨hs, hne⟩ | hbad
  · exact Or.inl ⟨hs, List.append_ne_nil_of_left_ne_nil hne more⟩
  · refine Or.inr ((checkBlock_append ?_ more).trans hbad)
    rw [hbad]
    exact nofun

lemma find_eagerFinder_cases {r : Nat × Bool × List (List UInt8)}
    (h : eagerFinder.find needSync buf = some r) :
    Skips needSync buf ∧ r = ((skipToSync buf).1, (skipToSync buf).2, []) ∨
      ∃ len, needSync = false ∧ checkBlock buf = .valid len ∧ r = (len, needSync, [buf.take len]) := by
  by_cases hskip : Skips needSync buf
  · rw [find_of_skips hskip] at h
    exact Or.inl ⟨hskip, (Option.some.inj h).symm⟩
  · cases hc : checkBlock buf with
    | more =>
      rw [find_eq_none hskip hc] at h
      cases h
    | bad => exact absurd (Or.inr hc) hskip
    | valid len =>
      have hne : buf ≠ [] := by
        rintro rfl
        cases hc
      have hs : needSync = false := eq_false_of_ne_true fun hs => hskip (Or.inl ⟨hs, hne⟩)
      rw [find_of_valid hs hc] at h
      exact Or.inr ⟨len, hs, rfl, (Option.some.inj h).symm⟩

lemma eagerFinder_coherent : eagerFinder.Coherent := by
  apply Finder.coherent_of_extends
  intro needSync buf n needSync' out hf
  rcases find_eagerFinder_cases hf with ⟨hskip, hr⟩ | ⟨len, hs, hvalid, hr⟩
  · cases hr
    by_cases hnone : skipToSync buf = (buf.length, true)
    · rw [hnone]
      refine Or.inr ⟨rfl, fun more hmore => ?_⟩
      refine ⟨_, _, _, find_of_skips (Or.inl ⟨rfl, hmore⟩), ?_⟩
      rcases skipToSync_append buf more with ⟨hfalse, -⟩ | ⟨-, happ⟩
      · rw [hnone] at hfalse
        cases hfalse
      · rw [find_of_skips (hskip.append more), happ]
        rfl
    · refine Or.inl fun more => ?_
      rcases skipToSync_append buf more with ⟨-, happ⟩ | ⟨hall, -⟩
      · rw [find_of_skips (hskip.append more), happ]
      · exact absurd hall hnone
  · cases hr
    refine Or.inl fun more => ?_
    have hlen := (length_of_checkBlock_valid hvalid).2.2
    have happ : checkBlock (buf ++ more) = .valid n := by
      rw [checkBlock_append (by rw [hvalid]; exact nofun), hvalid]
    rw [find_of_valid hs happ, List.take_append_of_le_length hlen]

lemma out_of_short (hlen : buf.length < messageMin) : (eagerFinder.feed needSync buf).out = [] := by
  have hmore : ∀ b : List UInt8, b.length < messageMin → checkBlock b = .more := fun _ h => if_pos h
  by_cases hskip : Skips needSync buf
  · have hne : buf ≠ [] := by
      rintro rfl
      rcases hskip with ⟨-, hne⟩ | hbad
      · exact hne rfl
      · cases hbad
    have hrest : ((buf.drop (skipToSync buf).1)).length < messageMin := by
      rw [List.length_drop]
      omega
    rw [Finder.feed_of_some (find_of_skips hskip)]
    rcases skipToSync_append buf [] with ⟨hfalse, -⟩ | ⟨hall, -⟩
    · rw [hfalse, Finder.feed_of_none (find_eq_none ?_ (hmore _ hrest))]
      · rfl
      · rintro (⟨hs, -⟩ | hbad)
        · cases hs
        · rw [hmore _ hrest] at hbad
          cases hbad
    · rw [hall, List.drop_length, Finder.feed_nil]
      rfl
  · rw [Finder.feed_of_none (find_eq_none hskip (hmore _ hlen))]

lemma messageFinder_lazy : messageFinder.Lazy eagerFinder := by
  constructor
  · intro needSync buf r hf
    unfold messageFinder at hf
    dsimp only at hf
    rcases msgblockCheck_cases needSync buf with ⟨hc, -⟩ | ⟨hc, hlen, hwhy⟩ | ⟨len, hc, hs, hvalid⟩
    · rw [hc] at hf
      cases hf
    · rw [hc] at hf
      cases hf
      have hne : buf ≠ [] := List.ne_nil_of_length_pos (Nat.lt_of_lt_of_le (by decide) hlen)
      exact find_of_skips (hwhy.imp (⟨·, hne⟩) id)
    · rw [hc] at hf
      cases hf
      exact find_of_valid hs hvalid
  · intro needSync buf hf
    unfold messageFinder at hf
    dsimp only at hf
    rcases msgblockCheck_cases needSync buf with ⟨-, hshort | ⟨hs, hmore⟩⟩ | ⟨hc, -⟩ | ⟨len, hc, -⟩
    · exact out_of_short hshort
    · rw [Finder.feed_of_none (find_eq_none ?_ hmore)]
      rintro (⟨hs', -⟩ | hbad)
      · exact Bool.false_ne_true (hs.symm.trans hs')
      · rw [hmore] at hbad
        cases hbad
    · rw [hc] at hf
      cases hf
    · rw [hc] at hf
      cases hf

end Finders

section Events

variable {s s' : InputState} {clientId : Nat} {needSync : Bool} {buf : Nat → UInt8}

/-- The state of the finder that `input_event` stands for. -/
def InputState.fed (s : InputState) : Fed Bool UInt8 (List UInt8) :=
  ⟨s.delivered, s.needSync, s.bytes⟩

lemma InputState.length_bytes (s : InputState) : s.bytes.length = s.inputPos :=
  Buffer.length_slice _ _ _

lemma InputState.bytes_remove {len : Nat} (hle : len ≤ s.inputPos) :
    (s.remove len).bytes = s.bytes.drop len := by
  have hdrop : s.bytes.drop len = Buffer.slice s.inputBuf len (s.inputPos - len) := by
    rw [InputState.bytes, Buffer.drop_slice _ _ hle, Nat.zero_add]
  rw [hdrop]
  unfold InputState.remove InputState.bytes
  dsimp only
  split
  · exact Buffer.slice_copy _ _ _ _
  · rename_i hzero
    rw [not_not.mp hzero]
    rfl

lemma inputLoop_eq {fuel : Nat} (hfuel : s.inputPos < fuel) :
    ∃ s', inputLoop fuel s = some s' ∧ s'.clientId = s.clientId ∧
      s'.fed = (messageFinder.feed s.needSync s.bytes).after s.delivered := by
  induction fuel generalizing s with
  | zero => exact absurd hfuel (Nat.not_lt_zero _)
  | succ fuel ih =>
    rw [inputLoop]
    rcases msgblockCheck_cases s.needSync s.bytes with
      ⟨hc, -⟩ | ⟨hc, hlen, -⟩ | ⟨len, hc, hs, hvalid⟩
    · have hnone : messageFinder.find s.needSync s.bytes = none := by
        unfold messageFinder
        dsimp only
        rw [hc]
      rw [hc, Finder.feed_of_none hnone]
      refine ⟨_, rfl, rfl, ?_⟩
      simp only [Fed.after, List.append_nil]
      rfl
    · have hsome : messageFinder.find s.needSync s.bytes =
          some ((skipToSync s.bytes).1, (skipToSync s.bytes).2, []) := by
        unfold messageFinder
        dsimp only
        rw [hc]
      obtain ⟨hpos, hle⟩ := messageFinder.progress hsome
      rw [InputState.length_bytes] at hle
      rw [hc, Finder.feed_of_some hsome, ← InputState.bytes_remove hle]
      dsimp only
      obtain ⟨s', hloop, hid, hfed⟩ := ih (s := InputState.remove { s with
        needSync := (skipToSync s.bytes).2
        bytesInvalid := s.bytesInvalid + UInt32.ofNat (skipToSync s.bytes).1 }
        (skipToSync s.bytes).1) (by dsimp only [InputState.remove]; omega)
      exact ⟨s', hloop, hid, hfed⟩
    · have hsome : messageFinder.find s.needSync s.bytes =
          some (len, s.needSync, [s.bytes.take len]) := by
        unfold messageFinder
        dsimp only
        rw [hc]
      obtain ⟨hpos, hle⟩ := messageFinder.progress hsome
      rw [InputState.length_bytes] at hle
      have htake : s.bytes.take len = Buffer.slice s.inputBuf 0 len := Buffer.take_slice _ _ hle
      rw [hc, Finder.feed_of_some hsome, ← InputState.bytes_remove hle, htake]
      dsimp only
      obtain ⟨s', hloop, hid, hfed⟩ := ih (s := InputState.remove { s with
        delivered := s.delivered ++ [Buffer.slice s.inputBuf 0 len] } len)
        (by dsimp only [InputState.remove]; omega)
      exact ⟨s', hloop, hid, hfed.trans (Fed.after_after _ _ _).symm⟩

lemma length_lt_of_wait {buf : List UInt8} (h : messageFinder.find needSync buf = none) :
    buf.length < messageMax := by
  unfold messageFinder at h
  dsimp only at h
  rcases msgblockCheck_cases needSync buf with ⟨-, hshort | ⟨-, hmore⟩⟩ | ⟨hc, -⟩ | ⟨len, hc, -⟩
  · exact Nat.lt_trans hshort (by decide)
  · rcases checkBlock_more hmore with hshort | ⟨hmax, hlen⟩
    · exact Nat.lt_trans hshort (by decide)
    · omega
  · rw [hc] at h
    cases h
  · rw [hc] at h
    cases h

lemma storeAndLoop_eq {bytes : List UInt8} (hroom : s.inputPos + bytes.length ≤ inputSize) :
    ∃ s', ((s.store bytes).bind fun s => inputLoop (s.inputPos + 1) s) = some s' ∧
      s'.clientId = s.clientId ∧ s'.fed = messageFinder.receive s.fed bytes := by
  have hbytes : Buffer.slice (Buffer.store s.inputBuf s.inputPos bytes) 0
      (s.inputPos + bytes.length) = s.bytes ++ bytes :=
    Buffer.slice_store_end bytes (Nat.zero_le _)
  unfold InputState.store
  rw [if_neg (Nat.not_lt.mpr hroom), Option.bind_some]
  obtain ⟨s', hloop, hid, hfed⟩ := inputLoop_eq (s := { s with
    inputBuf := Buffer.store s.inputBuf s.inputPos bytes
    inputPos := s.inputPos + bytes.length }) (Nat.lt_succ_self _)
  refine ⟨s', hloop, hid, hfed.trans ?_⟩
  unfold InputState.bytes
  rw [hbytes]
  rfl

lemma inputEvent_eq {r : Read} (hwait : messageFinder.find s.needSync s.bytes = none)
    (hl : ReadLegal s r) :
    ∃ s', inputEvent s r = some s' ∧ s'.clientId = s.clientId ∧
      s'.fed = messageFinder.receive s.fed (r.payload s.clientId) := by
  have hshort := length_lt_of_wait hwait
  rw [InputState.length_bytes] at hshort
  cases r with
  | uart bytes =>
    have hlen := hl.2
    unfold messageMax at hshort
    unfold inputSize at hlen
    exact storeAndLoop_eq (by unfold inputSize; omega)
  | can canId data =>
    rw [inputEvent, Read.payload]
    by_cases hid : canId ≠ s.clientId + 1
    · rw [if_pos hid, if_pos hid]
      refine ⟨s, rfl, rfl, ?_⟩
      unfold Finder.receive InputState.fed
      dsimp only
      rw [List.append_nil, Finder.feed_of_none hwait]
      simp only [Fed.after, List.append_nil]
    · rw [if_neg hid, if_neg hid]
      have hlen : data.length ≤ 8 := hl
      unfold messageMax at hshort
      exact storeAndLoop_eq (by unfold inputSize; omega)

lemma fed_of_run {reads : List Read}
    (h : Run inputEvent ReadLegal (inputStart clientId buf needSync) reads s) :
    s.clientId = clientId ∧
      s.fed = messageFinder.receiveAll needSync (reads.map (Read.payload clientId)) ∧
      messageFinder.find s.needSync s.bytes = none := by
  induction h with
  | nil => exact ⟨rfl, rfl, Finder.find_nil⟩
  | snoc _ hl hs ih =>
    rename_i reads s s' r _
    obtain ⟨hid, hfed, hwait⟩ := ih
    obtain ⟨s'', hs'', hid', hfed'⟩ := inputEvent_eq hwait hl
    obtain rfl := Option.some.inj (hs''.symm.trans hs)
    refine ⟨hid'.trans hid, ?_, ?_⟩
    · rw [hfed', hfed, hid, List.map_append, List.map_singleton, Finder.receiveAll_snoc]
    · have hfind := Finder.find_feed (F := messageFinder) s.fed.state
        (s.fed.rest ++ r.payload s.clientId)
      have hstate : s''.needSync = (messageFinder.receive s.fed (r.payload s.clientId)).state :=
        congrArg Fed.state hfed'
      have hrest : s''.bytes = (messageFinder.receive s.fed (r.payload s.clientId)).rest :=
        congrArg Fed.rest hfed'
      rw [hstate, hrest]
      exact hfind

end Events

/-- However the stream is cut into reads or frames, the same messages are delivered. After every
event at most 63 bytes are left, so that the next one finds room for what it reads, and returns. -/
theorem delivered_eq_of_stream_eq {clientId clientId' : Nat} {needSync : Bool} {buf buf' : Nat → UInt8}
    {reads reads' : List Read} {s s' : InputState}
    (h : Run inputEvent ReadLegal (inputStart clientId buf needSync) reads s)
    (h' : Run inputEvent ReadLegal (inputStart clientId' buf' needSync) reads' s')
    (hstream : reads.flatMap (Read.payload clientId) = reads'.flatMap (Read.payload clientId')) :
    s.delivered = s'.delivered ∧ s.inputPos ≤ 63 ∧
      ∀ r, ReadLegal s r → ∃ t, inputEvent s r = some t := by
  obtain ⟨-, hfed, hwait⟩ := fed_of_run h
  obtain ⟨-, hfed', -⟩ := fed_of_run h'
  have hout : s.delivered = (messageFinder.receiveAll needSync
      (reads.map (Read.payload clientId))).out := congrArg Fed.out hfed
  have hout' : s'.delivered = (messageFinder.receiveAll needSync
      (reads'.map (Read.payload clientId'))).out := congrArg Fed.out hfed'
  rw [messageFinder_lazy.receiveAll_out eagerFinder_coherent, ← List.flatMap_def] at hout hout'
  refine ⟨?_, ?_, ?_⟩
  · rw [hout, hout', hstream]
  · have hshort := length_lt_of_wait hwait
    rw [InputState.length_bytes] at hshort
    exact Nat.le_of_lt_succ hshort
  · intro r hl
    obtain ⟨t, ht, -⟩ := inputEvent_eq hwait hl
    exact ⟨t, ht⟩

instance (s : InputState) (r : Read) : Decidable (ReadLegal s r) :=
  r.casesOn (fun _ => instDecidableAnd) fun _ data => Nat.decLe data.length 8

/-- Bytes that are no message, up to a SYNC, and a message. -/
def noiseAndMessage : List UInt8 :=
  [1, 2, 3, 4, 5, 6, 7, 8, messageSync] ++ commandAddFrame 0x10 [9]

/-- The second read ends the noise, but is too short to be looked at. -/
def threeReads : List Read :=
  [.uart (noiseAndMessage.take 6), .uart ((noiseAndMessage.drop 6).take 3),
    .uart (noiseAndMessage.drop 9)]

def twoFrames : List Read :=
  [.can 0x101 (noiseAndMessage.take 8), .can 0x333 [1, 2, 3], .can 0x101 (noiseAndMessage.drop 8)]

theorem delivered_eq_of_stream_eq_noise :
    ∃ s s', Run inputEvent ReadLegal (inputStart 0x100 (fun _ => 0) false) threeReads s ∧
      Run inputEvent ReadLegal (inputStart 0x100 (fun _ => 0) false) twoFrames s' ∧
      s.delivered = [commandAddFrame 0x10 [9]] ∧ s'.delivered = [commandAddFrame 0x10 [9]] := by
  obtain ⟨s, hs, hp⟩ : ∃ s, Run inputEvent ReadLegal (inputStart 0x100 (fun _ => 0) false)
      threeReads s ∧ decide (s.delivered = [commandAddFrame 0x10 [9]]) = true :=
    Run.exists_of_exec threeReads _ (by decide +kernel)
  obtain ⟨s', hs', -⟩ : ∃ s, Run inputEvent ReadLegal (inputStart 0x100 (fun _ => 0) false)
      twoFrames s ∧ decide (s.inputPos = 0) = true :=
    Run.exists_of_exec twoFrames _ (by decide +kernel)
  have hd := of_decide_eq_true hp
  have heq := (delivered_eq_of_stream_eq hs hs' (by decide)).1
  exact ⟨s, s', hs, hs', hd, heq ▸ hd⟩

end KlipperMcu.Serial
