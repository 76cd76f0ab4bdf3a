import KlipperMcu.Firmware.Message
import KlipperMcu.Lib.Incremental
import Mathlib.Data.List.GetD

/-!
# Finding message blocks

`command_find_block` on a buffer of received bytes. Called again and again it does not matter when
the bytes arrive.
-/

namespace KlipperMcu.Wire

open Lib

/-- What the bytes at the start of a buffer are. -/
inductive Check where
  | more
  | bad
  | valid (msglen : Nat)
deriving DecidableEq, Repr

/-- The tests that `command_find_block` and `msgblock_check` make on a buffer. -/
def checkBlock (buf : List UInt8) : Check :=
  if buf.length < messageMin then .more
  else
    let msglen := (buf.getD 0 0).toNat
    if msglen < messageMin ∨ msglen > messageMax then .bad
    else if buf.getD 1 0 &&& ~~~messageSeqMask ≠ messageDest then .bad
    else if buf.length < msglen then .more
    else if buf.getD (msglen - 1) 0 ≠ messageSync then .bad
    else
      let msgcrc := ((buf.getD (msglen - 3) 0).toUInt16 <<< 8) ||| (buf.getD (msglen - 2) 0).toUInt16
      if crc16Ccitt (buf.take (msglen - messageTrailerSize)) ≠ msgcrc then .bad
      else .valid msglen

/-- `sync_state` and `next_sequence`. -/
structure Sync where
  needSync : Bool
  needValid : Bool
  nextSequence : UInt8
deriving DecidableEq, Repr

/-- The return value of `command_find_block`: 1, 0 or -1. -/
inductive Ret where
  | block
  | needMore
  | skip
deriving DecidableEq, Repr

/-- The results of `command_find_block`, with whether it sends a nak. -/
structure Found where
  ret : Ret
  popCount : Nat
  nak : Bool
  sync : Sync
deriving DecidableEq, Repr

/-- Discards the bytes up to the next SYNC. -/
def discard (s : Sync) (buf : List UInt8) : Found :=
  let nextSync := buf.findIdx? (· == messageSync)
  { ret := .skip
    popCount := (nextSync.map (· + 1)).getD buf.length
    nak := !s.needValid
    sync := { s with needSync := nextSync.isNone, needValid := true } }

def commandFindBlock (s : Sync) (buf : List UInt8) : Found :=
  if buf ≠ [] ∧ s.needSync then discard s buf
  else
    match checkBlock buf with
    | .more => ⟨.needMore, 0, false, s⟩
    | .bad => if buf.head? = some messageSync then ⟨.skip, 1, false, s⟩ else discard s buf
    | .valid msglen =>
      let s := { s with needValid := false }
      let msgseq := buf.getD 1 0
      if msgseq ≠ s.nextSequence then ⟨.skip, msglen, true, s⟩
      else
        ⟨.block, msglen, false,
          { s with nextSequence := ((msgseq + 1) &&& messageSeqMask) ||| messageDest }⟩

section Check

variable {buf : List UInt8} {n : Nat}

lemma checkBlock_cases (buf : List UInt8) :
    checkBlock buf = .more ∧ (buf.length < messageMin ∨
        (buf.getD 0 0).toNat ≤ messageMax ∧ buf.length < (buf.getD 0 0).toNat) ∨
      checkBlock buf = .bad ∧ messageMin ≤ buf.length ∨
      checkBlock buf = .valid (buf.getD 0 0).toNat ∧ messageMin ≤ (buf.getD 0 0).toNat ∧
        (buf.getD 0 0).toNat ≤ messageMax ∧ (buf.getD 0 0).toNat ≤ buf.length ∧
        buf.getD ((buf.getD 0 0).toNat - 1) 0 = messageSync := by
  by_cases hmin : buf.length < messageMin
  · exact .inl ⟨if_pos hmin, .inl hmin⟩
  unfold checkBlock
  rw [if_neg hmin]
  dsimp only
  generalize (buf.getD 0 0).toNat = msglen
  by_cases hrange : msglen < messageMin ∨ msglen > messageMax
  · exact .inr (.inl ⟨if_pos hrange, Nat.not_lt.mp hmin⟩)
  rw [if_neg hrange]
  by_cases hseq : buf.getD 1 0 &&& ~~~messageSeqMask ≠ messageDest
  · exact .inr (.inl ⟨if_pos hseq, Nat.not_lt.mp hmin⟩)
  rw [if_neg hseq]
  by_cases hlen : buf.length < msglen
  · exact .inl ⟨if_pos hlen, .inr ⟨by omega, hlen⟩⟩
  rw [if_neg hlen]
  by_cases hsync : buf.getD (msglen - 1) 0 ≠ messageSync
  · exact .inr (.inl ⟨if_pos hsync, Nat.not_lt.mp hmin⟩)
  rw [if_neg hsync]
  right
  split_ifs
  · exact .inl ⟨rfl, Nat.not_lt.mp hmin⟩
  · exact .inr ⟨rfl, by omega, by omega, by omega, not_not.mp hsync⟩

lemma length_of_checkBlock_bad (h : checkBlock buf = .bad) : messageMin ≤ buf.length := by
  rcases checkBlock_cases buf with ⟨hc, -⟩ | ⟨-, hlen⟩ | ⟨hc, -⟩
  · cases hc.symm.trans h
  · exact hlen
  · cases hc.symm.trans h

lemma checkBlock_valid (h : checkBlock buf = .valid n) :
    (buf.getD 0 0).toNat = n ∧ messageMin ≤ n ∧ n ≤ messageMax ∧ n ≤ buf.length ∧
      buf.getD (n - 1) 0 = messageSync := by
  rcases checkBlock_cases buf with ⟨hc, -⟩ | ⟨hc, -⟩ | ⟨hc, hvalid⟩
  · cases hc.symm.trans h
  · cases hc.symm.trans h
  · cases hc.symm.trans h
    exact ⟨rfl, hvalid⟩

lemma length_of_checkBlock_valid (h : checkBlock buf = .valid n) :
    messageMin ≤ n ∧ n ≤ messageMax ∧ n ≤ buf.length := by
  obtain ⟨-, hmin, hmax, hlen, -⟩ := checkBlock_valid h
  exact ⟨hmin, hmax, hlen⟩

lemma checkBlock_append (h : checkBlock buf ≠ .more) (more : List UInt8) :
    checkBlock (buf ++ more) = checkBlock buf := by
  unfold checkBlock at h ⊢
  rw [List.length_append]
  by_cases hmin : buf.length < messageMin
  · rw [if_pos hmin] at h
    exact absurd rfl h
  rw [if_neg hmin] at h
  have hmin' : 5 ≤ buf.length := Nat.not_lt.mp hmin
  rw [if_neg hmin, if_neg (by omega), List.getD_append _ _ _ _ (by omega),
    List.getD_append _ _ _ _ (by omega)]
  dsimp only at h ⊢
  generalize (buf.getD 0 0).toNat = msglen at h ⊢
  split
  · rfl
  · rename_i hrange
    rw [if_neg hrange] at h
    split
    · rfl
    · rename_i hseq
      rw [if_neg hseq] at h
      split at h
      · exact absurd rfl h
      · rename_i hlen
        have hlen' : msglen ≤ buf.length := Nat.not_lt.mp hlen
        have hmsg : 5 ≤ msglen := by
          unfold messageMin messageMax at hrange
          omega
        rw [if_neg (by omega), if_neg hlen, List.getD_append _ _ _ _ (by omega),
          List.getD_append _ _ _ _ (by omega), List.getD_append _ _ _ _ (by omega),
          List.take_append_of_le_length (by omega)]

lemma checkBlock_more (h : checkBlock buf = .more) :
    buf.length < messageMin ∨
      (buf.getD 0 0).toNat ≤ messageMax ∧ buf.length < (buf.getD 0 0).toNat := by
  rcases checkBlock_cases buf with ⟨-, hmore⟩ | ⟨hc, -⟩ | ⟨hc, -⟩
  · exact hmore
  · cases hc.symm.trans h
  · cases hc.symm.trans h

lemma getD_of_checkBlock_valid (h : checkBlock buf = .valid n) : (buf.getD 0 0).toNat = n :=
  (checkBlock_valid h).1

lemma getD_take {i : Nat} (h : i < n) : (buf.take n).getD i 0 = buf.getD i 0 := by
  rw [List.getD_eq_getElem?_getD, List.getD_eq_getElem?_getD, List.getElem?_take, if_pos h]

lemma checkBlock_take (h : checkBlock buf = .valid n) : checkBlock (buf.take n) = .valid n := by
  obtain ⟨hmin, -, hlen⟩ := length_of_checkBlock_valid h
  have htake : (buf.take n).length = n := by
    rw [List.length_take, Nat.min_eq_left hlen]
  have hfirst : ((buf.take n).getD 0 0).toNat = n := by
    have hpos : 0 < n := Nat.lt_of_lt_of_le (by decide) hmin
    rw [getD_take hpos]
    exact getD_of_checkBlock_valid h
  have hmore : checkBlock (buf.take n) ≠ .more := by
    intro hm
    have := checkBlock_more hm
    rw [htake, hfirst] at this
    omega
  rw [← List.take_append_drop n buf, checkBlock_append hmore] at h
  exact h

end Check

/-- The calls that discard bytes up to a SYNC. -/
def Discards (s : Sync) (buf : List UInt8) : Prop :=
  buf ≠ [] ∧ s.needSync = true ∨ checkBlock buf = .bad ∧ buf.head? ≠ some messageSync

section Find

variable {s : Sync} {buf : List UInt8}

lemma Discards.ne_nil (h : Discards s buf) : buf ≠ [] := by
  rcases h with ⟨hne, -⟩ | ⟨hbad, -⟩
  · exact hne
  · rintro rfl
    cases hbad

lemma commandFindBlock_of_discards (h : Discards s buf) :
    commandFindBlock s buf = discard s buf := by
  unfold commandFindBlock
  split
  · rfl
  · rename_i hsync
    obtain ⟨hbad, hhead⟩ := h.resolve_left hsync
    simp only [hbad, if_neg hhead]

lemma Discards.append (h : Discards s buf) (more : List UInt8) : Discards s (buf ++ more) := by
  rcases h with ⟨hne, hsync⟩ | ⟨hbad, hhead⟩
  · exact Or.inl ⟨List.append_ne_nil_of_left_ne_nil hne more, hsync⟩
  · refine Or.inr ⟨?_, ?_⟩
    · rw [checkBlock_append (by rw [hbad]; decide), hbad]
    · cases buf with
      | nil => cases hbad
      | cons b buf => exact hhead

lemma commandFindBlock_append (h : ¬Discards s buf)
    (hret : (commandFindBlock s buf).ret ≠ .needMore) (more : List UInt8) :
    commandFindBlock s (buf ++ more) = commandFindBlock s buf := by
  have hsync : ¬(buf ≠ [] ∧ s.needSync = true) := fun hs => h (Or.inl hs)
  have hcheck : checkBlock buf ≠ .more := by
    intro hmore
    apply hret
    unfold commandFindBlock
    rw [if_neg hsync, hmore]
  cases buf with
  | nil => exact absurd rfl hcheck
  | cons b buf =>
    have hoff : ¬s.needSync = true := fun hs => hsync ⟨List.cons_ne_nil _ _, hs⟩
    unfold commandFindBlock
    rw [if_neg hsync, if_neg fun hs => hoff hs.2, checkBlock_append hcheck]
    cases hc : checkBlock (b :: buf) with
    | more => exact absurd hc hcheck
    | bad =>
      have hhead : (b :: buf).head? = some messageSync := by
        by_contra hne
        exact h (Or.inr ⟨hc, hne⟩)
      dsimp only
      rw [if_pos hhead, if_pos (show (b :: buf ++ more).head? = some messageSync from hhead)]
    | valid n =>
      obtain ⟨hmin, -, hlen⟩ := length_of_checkBlock_valid hc
      have hone : 1 < (b :: buf).length := Nat.lt_of_lt_of_le (by decide : 1 < messageMin) (Nat.le_trans hmin hlen)
      dsimp only
      rw [List.getD_append _ _ _ _ hone]

lemma discard_append (h : buf.findIdx? (· == messageSync) = none) (more : List UInt8) :
    discard s (buf ++ more) =
      { discard (discard s buf).sync more with
        popCount := buf.length + (discard (discard s buf).sync more).popCount
        nak := !s.needValid } := by
  unfold discard
  simp only [List.findIdx?_append, h, Option.none_or, List.length_append]
  cases more.findIdx? (· == messageSync) with
  | none => simp
  | some i =>
    simp
    omega

/-- What a call of `command_find_block` lets others see. -/
inductive Event where
  | block (bytes : List UInt8)
  | nak
deriving DecidableEq, Repr

def Found.events (f : Found) (buf : List UInt8) : List Event :=
  (if f.ret = .block then [.block (buf.take f.popCount)] else []) ++ if f.nak then [.nak] else []

lemma popCount_discard (hne : buf ≠ []) :
    0 < (discard s buf).popCount ∧ (discard s buf).popCount ≤ buf.length := by
  have hpos := List.length_pos_iff.mpr hne
  unfold discard
  dsimp only
  cases hi : buf.findIdx? (· == messageSync) with
  | none => exact ⟨hpos, Nat.le_refl _⟩
  | some i =>
    obtain ⟨hlt, -⟩ := List.findIdx?_eq_some_iff_getElem.mp hi
    exact ⟨Nat.succ_pos i, hlt⟩

lemma popCount_commandFindBlock (h : (commandFindBlock s buf).ret ≠ .needMore) :
    0 < (commandFindBlock s buf).popCount ∧ (commandFindBlock s buf).popCount ≤ buf.length := by
  by_cases hd : Discards s buf
  · rw [commandFindBlock_of_discards hd]
    exact popCount_discard hd.ne_nil
  · have hsync : ¬(buf ≠ [] ∧ s.needSync = true) := fun hs => hd (Or.inl hs)
    unfold commandFindBlock at h ⊢
    rw [if_neg hsync] at h ⊢
    cases hc : checkBlock buf with
    | more =>
      rw [hc] at h
      exact absurd rfl h
    | bad =>
      have hlen := length_of_checkBlock_bad hc
      have hhead : buf.head? = some messageSync := by
        by_contra hne
        exact hd (Or.inr ⟨hc, hne⟩)
      simp only [hhead, if_true]
      exact ⟨Nat.one_pos, Nat.le_trans (by decide) hlen⟩
    | valid n =>
      obtain ⟨hmin, -, hlen⟩ := length_of_checkBlock_valid hc
      have hpos : 0 < n := Nat.lt_of_lt_of_le (by decide) hmin
      dsimp only
      split
      · exact ⟨hpos, hlen⟩
      · exact ⟨hpos, hlen⟩

lemma commandFindBlock_needMore (h : (commandFindBlock s buf).ret = .needMore) :
    commandFindBlock s buf = ⟨.needMore, 0, false, s⟩ := by
  unfold commandFindBlock at h ⊢
  by_cases hsync : buf ≠ [] ∧ s.needSync = true
  · rw [if_pos hsync] at h
    cases h
  · rw [if_neg hsync] at h ⊢
    cases hc : checkBlock buf with
    | more => rfl
    | bad =>
      rw [hc] at h
      dsimp only at h
      split at h <;> cases h
    | valid n =>
      rw [hc] at h
      dsimp only at h
      split at h <;> cases h

lemma sync_of_needMore (h : (commandFindBlock s buf).ret = .needMore) :
    (commandFindBlock s buf).sync = s := congrArg Found.sync (commandFindBlock_needMore h)

lemma commandFindBlock_block (h : (commandFindBlock s buf).ret = .block) :
    s.needSync = false ∧ checkBlock buf = .valid (commandFindBlock s buf).popCount ∧
      buf.getD 1 0 = s.nextSequence ∧ (commandFindBlock s buf).nak = false ∧
      (commandFindBlock s buf).sync.nextSequence =
        ((s.nextSequence + 1) &&& messageSeqMask) ||| messageDest := by
  unfold commandFindBlock at h ⊢
  by_cases hsync : buf ≠ [] ∧ s.needSync = true
  · rw [if_pos hsync] at h
    cases h
  · rw [if_neg hsync] at h ⊢
    cases hc : checkBlock buf with
    | more =>
      rw [hc] at h
      cases h
    | bad =>
      rw [hc] at h
      dsimp only at h
      split at h <;> cases h
    | valid n =>
      rw [hc] at h
      dsimp only at h ⊢
      by_cases hseq : buf.getD 1 0 ≠ s.nextSequence
      · rw [if_pos hseq] at h
        cases h
      · have heq : buf.getD 1 0 = s.nextSequence := not_not.mp hseq
        have hne : buf ≠ [] := by
          rintro rfl
          cases hc
        have hoff : s.needSync = false := eq_false_of_ne_true fun hs => hsync ⟨hne, hs⟩
        rw [if_neg hseq, heq]
        exact ⟨hoff, rfl, rfl, rfl, rfl⟩

lemma nextSequence_of_ne_block (h : (commandFindBlock s buf).ret ≠ .block) :
    (commandFindBlock s buf).sync.nextSequence = s.nextSequence := by
  unfold commandFindBlock at h ⊢
  split
  · rfl
  · rename_i hsync
    rw [if_neg hsync] at h
    cases hc : checkBlock buf with
    | more => rfl
    | bad =>
      dsimp only
      split <;> rfl
    | valid n =>
      rw [hc] at h
      dsimp only at h ⊢
      split
      · rfl
      · rename_i hseq
        rw [if_neg hseq] at h
        exact absurd rfl h

end Find

section Frame

variable {seq : UInt8} {payload : List UInt8}

lemma crc_bytes (crc : UInt16) :
    ((crc >>> 8).toUInt8.toUInt16 <<< 8) ||| crc.toUInt8.toUInt16 = crc := by
  have hcrc := crc.toNat_lt
  have hlow : crc.toNat % 256 < 2 ^ 8 := Nat.mod_lt _ (by decide)
  rw [← UInt16.toNat_inj, UInt16.toNat_or, UInt16.toNat_shiftLeft, UInt8.toNat_toUInt16,
    UInt8.toNat_toUInt16, UInt16.toNat_toUInt8, UInt16.toNat_toUInt8, UInt16.toNat_shiftRight]
  change (crc.toNat >>> 8 % 256) <<< 8 % 2 ^ 16 ||| crc.toNat % 256 = crc.toNat
  rw [Nat.shiftRight_eq_div_pow, Nat.shiftLeft_eq,
    show crc.toNat / 2 ^ 8 % 256 * 2 ^ 8 % 2 ^ 16 = 2 ^ 8 * (crc.toNat / 256) by omega,
    ← Nat.two_pow_add_eq_or_of_lt hlow]
  omega

lemma checkBlock_commandAddFrame (hlen : payload.length + messageMin ≤ messageMax)
    (hseq : seq &&& ~~~messageSeqMask = messageDest) :
    checkBlock (commandAddFrame seq payload) = .valid (payload.length + messageMin) := by
  have hbuf := length_commandAddFrame seq payload
  unfold messageMin messageMax at hlen
  have hfirst : ((commandAddFrame seq payload).getD 0 0).toNat = payload.length + messageMin := by
    change (UInt8.ofNat (payload.length + messageMin)).toNat = payload.length + messageMin
    rw [UInt8.toNat_ofNat']
    unfold messageMin
    omega
  have hsecond : (commandAddFrame seq payload).getD 1 0 = seq := rfl
  unfold checkBlock
  dsimp only
  rw [hbuf, hfirst, hsecond, if_neg (by omega), if_neg (by unfold messageMin messageMax; omega),
    if_neg (not_not.mpr hseq), if_neg (by omega)]
  generalize hbody : UInt8.ofNat (payload.length + messageMin) :: seq :: payload = body
  have hblen : body.length = payload.length + 2 := by
    rw [← hbody]
    rfl
  have hframe : commandAddFrame seq payload =
      body ++ [(crc16Ccitt body >>> 8).toUInt8, (crc16Ccitt body).toUInt8, messageSync] := by
    rw [← hbody]
    rfl
  have htail : ∀ i, (body ++ [(crc16Ccitt body >>> 8).toUInt8, (crc16Ccitt body).toUInt8,
      messageSync]).getD (body.length + i) 0 =
      [(crc16Ccitt body >>> 8).toUInt8, (crc16Ccitt body).toUInt8, messageSync].getD i 0 := by
    intro i
    rw [List.getD_append_right _ _ _ _ (by omega), Nat.add_sub_cancel_left]
  rw [hframe, show payload.length + messageMin - 1 = body.length + 2 by unfold messageMin; omega,
    show payload.length + messageMin - 2 = body.length + 1 by unfold messageMin; omega,
    show payload.length + messageMin - 3 = body.length + 0 by unfold messageMin; omega,
    show payload.length + messageMin - messageTrailerSize = body.length by
      unfold messageMin messageTrailerSize; omega,
    htail, htail, htail, List.take_left]
  simp only [List.getD_cons_succ, List.getD_cons_zero, ne_eq, not_true_eq_false, if_false, crc_bytes]

lemma commandFindBlock_eq_of_valid {s : Sync} {buf : List UInt8} {n : Nat}
    (hs : s.needSync = false) (hvalid : checkBlock buf = .valid n) :
    commandFindBlock s buf =
      if buf.getD 1 0 ≠ s.nextSequence then ⟨.skip, n, true, { s with needValid := false }⟩
      else ⟨.block, n, false, { s with
        needValid := false
        nextSequence := ((buf.getD 1 0 + 1) &&& messageSeqMask) ||| messageDest }⟩ := by
  unfold commandFindBlock
  rw [if_neg fun h => Bool.false_ne_true (hs.symm.trans h.2), hvalid]

lemma commandFindBlock_of_valid {s : Sync} {buf : List UInt8} {n : Nat} (hs : s.needSync = false)
    (hvalid : checkBlock buf = .valid n) (hseq : buf.getD 1 0 = s.nextSequence) :
    (commandFindBlock s buf).ret = .block ∧ (commandFindBlock s buf).popCount = n := by
  rw [commandFindBlock_eq_of_valid hs hvalid, if_neg (not_not.mpr hseq)]
  exact ⟨rfl, rfl⟩

end Frame

/-- `command_find_block` as a finder of blocks. -/
def blockFinder : Finder Sync UInt8 Event where
  find s buf :=
    let f := commandFindBlock s buf
    if f.ret = .needMore then none else some (f.popCount, f.sync, f.events buf)
  progress {s buf n s' out} h := by
    dsimp only at h
    split at h
    · cases h
    · rename_i hret
      cases h
      exact popCount_commandFindBlock hret

/-- The blocks in a list of events. -/
def blocks (events : List Event) : List (List UInt8) :=
  events.filterMap fun
    | .block bytes => some bytes
    | .nak => none

lemma blocks_events (f : Found) (buf : List UInt8) :
    blocks (f.events buf) = if f.ret = .block then [buf.take f.popCount] else [] := by
  unfold Found.events
  split <;> cases f.nak <;> rfl

lemma find_blockFinder {s : Sync} {buf : List UInt8} (h : (commandFindBlock s buf).ret ≠ .needMore) :
    blockFinder.find s buf = some ((commandFindBlock s buf).popCount,
      (commandFindBlock s buf).sync, (commandFindBlock s buf).events buf) :=
  if_neg h

lemma events_append {s : Sync} {buf : List UInt8}
    (h : (commandFindBlock s buf).ret ≠ .needMore) (more : List UInt8) :
    (commandFindBlock s buf).events (buf ++ more) = (commandFindBlock s buf).events buf := by
  unfold Found.events
  rw [List.take_append_of_le_length (popCount_commandFindBlock h).2]

lemma find_of_discards {s : Sync} {buf : List UInt8} (h : Discards s buf) :
    blockFinder.find s buf = some ((discard s buf).popCount, (discard s buf).sync,
      if s.needValid then [] else [.nak]) := by
  have hfind := commandFindBlock_of_discards h
  rw [find_blockFinder (by rw [hfind]; exact nofun), hfind]
  cases hv : s.needValid <;> simp [Found.events, discard, hv]

/-- It does not matter how the bytes are cut into the buffers that are looked at. -/
theorem blockFinder_coherent : blockFinder.Coherent := by
  apply Finder.coherent_of_extends
  intro s buf n s' out hf
  have hret : (commandFindBlock s buf).ret ≠ .needMore := by
    intro hmore
    rw [blockFinder] at hf
    simp only [hmore, if_true] at hf
    cases hf
  by_cases hd : Discards s buf
  · rw [find_of_discards hd] at hf
    cases hf
    cases hi : buf.findIdx? (· == messageSync) with
    | some i =>
      left
      intro more
      have hsame : (buf ++ more).findIdx? (· == messageSync) = some i := by
        rw [List.findIdx?_append, hi]
        rfl
      rw [find_of_discards (hd.append more)]
      simp only [discard, hi, hsame]
      rfl
    | none =>
      refine Or.inr ⟨by simp only [discard, hi]; rfl, fun more hmore => ?_⟩
      have hsync : Discards (discard s buf).sync more := by
        refine Or.inl ⟨hmore, ?_⟩
        simp only [discard, hi]
        rfl
      refine ⟨_, _, _, find_of_discards hsync, ?_⟩
      rw [find_of_discards (hd.append more), discard_append hi]
      simp [discard, hi]
  · rw [find_blockFinder hret] at hf
    cases hf
    left
    intro more
    have hsame := commandFindBlock_append hd hret more
    rw [find_blockFinder (by rw [hsame]; exact hret), hsame, events_append hret]

/-- Two ways of cutting a byte stream give the same blocks, as many naks, the same synchronisation
state with the same expected sequence number, and the same bytes left over. -/
theorem receiveAll_blockFinder_eq (s : Sync) {chunks chunks' : List (List UInt8)}
    (h : chunks.flatten = chunks'.flatten) :
    let r := blockFinder.receiveAll s chunks
    let r' := blockFinder.receiveAll s chunks'
    blocks r.out = blocks r'.out ∧ r.out.count .nak = r'.out.count .nak ∧
      r.state = r'.state ∧ r.rest = r'.rest := by
  intro r r'
  have heq : r = r' := by
    change blockFinder.receiveAll s chunks = blockFinder.receiveAll s chunks'
    rw [Finder.receiveAll_eq blockFinder_coherent, Finder.receiveAll_eq blockFinder_coherent, h]
  rw [heq]
  exact ⟨rfl, rfl, rfl, rfl⟩

/-- The bytes of a block that arrive one by one. -/
theorem receiveAll_blockFinder_bytewise :
    [commandAddFrame 0x10 [1]].flatten = ((commandAddFrame 0x10 [1]).map fun b => [b]).flatten ∧
      blocks (blockFinder.receiveAll ⟨false, false, 0x10⟩ [commandAddFrame 0x10 [1]]).out =
        blocks (blockFinder.receiveAll ⟨false, false, 0x10⟩
          ((commandAddFrame 0x10 [1]).map fun b => [b])).out :=
  ⟨by decide, (receiveAll_blockFinder_eq ⟨false, false, 0x10⟩ (by decide)).1⟩

end KlipperMcu.Wire
