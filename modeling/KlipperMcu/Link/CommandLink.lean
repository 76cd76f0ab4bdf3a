import KlipperMcu.Firmware.Dispatch
import KlipperMcu.Host.BuildCommands
import KlipperMcu.Host.SerialQueueRun

/-!
# Commands from the host to their handlers

The host encodes commands with their message formats and packs them into a block. The firmware finds
the block, parses the commands with the tables that were generated for it, and calls their handlers.
-/

namespace KlipperMcu.Commands

open Lib Wire MsgProto BuildCommands Serial

/-- A command that the host sends: its encoded id, its parser in the firmware, the types of its
format, the parameters given to `encode`, and the values they stand for. -/
structure Command (φ : Type) where
  encodedMsgid : Nat
  parser : CommandParser φ
  paramTypes : List PT
  params : List Value
  sent : List Value

/-- A value that a parameter of a command can have. -/
def Sendable : ParamType → Value → Prop
  | .int _, .int v => -2 ^ 31 ≤ v ∧ v < 2 ^ 32
  | .buffer, .bytes _ => True
  | _, _ => False

/-- The values that the parameters of a command stand for. -/
def Resolves : List PT → List Value → List Value → Prop
  | [], [], [] => True
  | t :: types, v :: params, w :: sent =>
    t.resolve v = .ok w ∧ Sendable t.type w ∧ Resolves types params sent
  | _, _, _ => False

/-- The command is one of the firmware's table, with integers and buffers as parameters. -/
structure Command.FromTable {φ : Type} (c : Command φ) (index : List (CommandParser φ)) : Prop where
  pos : 0 < c.encodedMsgid
  lt : c.encodedMsgid < 0x3fe0
  parser : index[c.encodedMsgid]? = some c.parser
  types : c.paramTypes.map PT.type = c.parser.paramTypes
  resolves : Resolves c.paramTypes c.params c.sent

/-- The format that the host has made for the command from the data dictionary. -/
def Command.format {φ : Type} (c : Command φ) : MessageFormat where
  msgidBytes := encodeInteger ((convertEncodedMsgid c.encodedMsgid).getD 0)
  paramTypes := c.paramTypes

/-- The arguments of a handler have the values that were sent. -/
def Carries (base : UInt32) (buf : List UInt8) : List Value → List UInt32 → Prop
  | [], [] => True
  | .int v :: sent, a :: args => (a.toNat : Int) = v % 2 ^ 32 ∧ Carries base buf sent args
  | .bytes s :: sent, len :: ptr :: args =>
    len.toNat = s.length ∧ (buf.drop (ptr - base).toNat).take len.toNat = s ∧
      Carries base buf sent args
  | _, _ => False

section Encode

variable {buf pre post bytes : List UInt8} {maxend : Nat}

lemma parseInt_encodeInteger {v : Int} (h : -2 ^ 31 ≤ v) (h' : v < 2 ^ 32)
    (hbuf : buf = pre ++ encodeInteger v ++ post) :
    (parseInt buf pre.length).result =
      .ok (UInt32.ofInt v, pre.length + (encodeInteger v).length) := by
  have hdecode : Vlq.decode (buf.drop pre.length) = some (v, (encodeInteger v).length) := by
    rw [hbuf, List.append_assoc, List.drop_left, encodeInteger_eq, Vlq.length_digits,
      Vlq.decode_digits (fits_moreBytes h h')]
  rw [parseInt_eq hdecode]

lemma encodeParamList_cons {t : PT} {types : List PT} {v w : Value} {params : List Value}
    (hres : t.resolve v = .ok w) (h : encodeParamList (t :: types) (v :: params) = .ok bytes) :
    ∃ first rest, encodeValue t.type w = .ok first ∧ encodeParamList types params = .ok rest ∧
      bytes = first ++ rest := by
  rw [encodeParamList, hres] at h
  change (encodeValue t.type w >>= fun first => encodeParamList types params >>= fun rest =>
    pure (first ++ rest)) = .ok bytes at h
  cases hfirst : encodeValue t.type w with
  | error e =>
    rw [hfirst] at h
    cases h
  | ok first =>
    rw [hfirst] at h
    change (encodeParamList types params >>= fun rest => pure (first ++ rest)) = .ok bytes at h
    cases hrest : encodeParamList types params with
    | error e =>
      rw [hrest] at h
      cases h
    | ok rest =>
      rw [hrest] at h
      cases h
      exact ⟨first, rest, rfl, rfl, rfl⟩

lemma toNat_commandEncodePtr (base : UInt32) {p : Nat} (hp : p < 2 ^ 32) :
    (commandEncodePtr base p - base).toNat = p := by
  unfold commandEncodePtr
  rw [UInt32.add_comm, UInt32.add_sub_cancel, toNat_ofNat_of_lt hp]

lemma commandParsef_encodeValue {base : UInt32} {t : ParamType} {types : List ParamType} {w : Value}
    {sent : List Value} {args : List UInt32} {r : Nat} (hsend : Sendable t w)
    (hfirst : encodeValue t w = .ok bytes) (hbuf : buf = pre ++ bytes ++ post)
    (hend : pre.length + bytes.length ≤ maxend) (hsmall : maxend < 2 ^ 8)
    (hrest : (commandParsef base buf maxend types (pre.length + bytes.length)).result = .ok (args, r))
    (hcarries : Carries base buf sent args) :
    ∃ args', (commandParsef base buf maxend (t :: types) pre.length).result = .ok (args', r) ∧
      Carries base buf (w :: sent) args' := by
  have hp : pre.length ≤ maxend := by omega
  cases t with
  | int k =>
    cases w with
    | bytes s => cases hsend
    | name s => cases hsend
    | int x =>
      cases hfirst
      have hint := parseInt_encodeInteger hsend.1 hsend.2 hbuf
      exact ⟨_, commandParsef_int hp hint hrest, toNat_ofInt x, hcarries⟩
  | buffer =>
    cases w with
    | int x => cases hsend
    | name s => cases hsend
    | bytes s =>
      cases hfirst
      rw [List.length_cons] at hrest hend
      have hlen : (UInt8.ofNat s.length).toNat = s.length := by
        rw [UInt8.toNat_ofNat']
        omega
      have hread : buf[pre.length]? = some (UInt8.ofNat s.length) := by
        rw [hbuf]
        simp
      have hcut : (buf.drop (pre.length + 1)).take s.length = s := by
        rw [hbuf, show pre ++ UInt8.ofNat s.length :: s ++ post =
            pre ++ [UInt8.ofNat s.length] ++ (s ++ post) by simp,
          List.drop_left' (by simp), List.take_left]
      have hsum : pre.length + 1 + (UInt8.ofNat s.length).toNat = pre.length + (s.length + 1) := by
        omega
      refine ⟨_, commandParsef_buffer hp hread (hsum ▸ hend) (hsum ▸ hrest), ?_, ?_, hcarries⟩
      · rw [UInt8.toNat_toUInt32, hlen]
      · rw [UInt8.toNat_toUInt32, hlen, toNat_commandEncodePtr base (by omega), hcut]
  | string => cases hsend
  | progmemBuffer => cases hsend

lemma commandParsef_encodeParamList (base : UInt32) {types : List PT} {params sent : List Value}
    (hres : Resolves types params sent) (hbytes : encodeParamList types params = .ok bytes)
    (hbuf : buf = pre ++ bytes ++ post) (hend : pre.length + bytes.length ≤ maxend)
    (hsmall : maxend < 2 ^ 8) :
    ∃ args, (commandParsef base buf maxend (types.map PT.type) pre.length).result =
        .ok (args, pre.length + bytes.length) ∧ Carries base buf sent args := by
  induction types generalizing params sent bytes pre with
  | nil =>
    cases params with
    | cons v params => cases hres
    | nil =>
      cases sent with
      | cons w sent => cases hres
      | nil =>
        cases hbytes
        exact ⟨[], rfl, trivial⟩
  | cons t types ih =>
    cases params with
    | nil => cases hres
    | cons v params =>
      cases sent with
      | nil => cases hres
      | cons w sent =>
        obtain ⟨hw, hsend, hres⟩ := hres
        obtain ⟨first, rest, hfirst, hrest, rfl⟩ := encodeParamList_cons hw hbytes
        rw [List.length_append] at hend
        have hbuf' : buf = pre ++ first ++ rest ++ post := by
          rw [hbuf, List.append_assoc pre first rest]
        have hnext := ih hres hrest hbuf' (by rw [List.length_append]; omega)
        rw [List.length_append, Nat.add_assoc] at hnext
        obtain ⟨args, hargs, hcarries⟩ := hnext
        rw [List.length_append]
        rw [List.append_assoc _ rest post] at hbuf'
        exact commandParsef_encodeValue hsend hfirst hbuf' (by omega) hsmall hargs hcarries

end Encode

section Dispatch

variable {σ φ : Type} {env : Env σ φ} {index : List (CommandParser φ)} {base : UInt32}
  {buf pre post bytes : List UInt8} {msgend : Nat} {c : Command φ}

lemma commandLookupParser_of_fromTable (h : c.FromTable index) :
    (commandLookupParser index (UInt16.ofNat c.encodedMsgid)).result = .ok c.parser := by
  have hpos := h.pos
  have hlt := h.lt
  have hnat : (UInt16.ofNat c.encodedMsgid).toNat = c.encodedMsgid := by
    rw [UInt16.toNat_ofNat']
    omega
  have hne : UInt16.ofNat c.encodedMsgid ≠ 0 := by
    intro hzero
    rw [← UInt16.toNat_inj, hnat] at hzero
    exact absurd hzero (Nat.ne_of_gt hpos)
  unfold commandLookupParser
  rw [if_neg hne, hnat, h.parser]
  rfl

lemma encode_format (h : c.FromTable index) (hbytes : c.format.encode c.params = .ok bytes) :
    ∃ rest, encodeParamList c.paramTypes c.params = .ok rest ∧
      bytes = encodeMsgid (UInt16.ofNat c.encodedMsgid) ++ rest := by
  have hlt := h.lt
  unfold MessageFormat.encode Command.format at hbytes
  dsimp only at hbytes
  rw [convertEncodedMsgid_eq (by omega), Option.getD_some, encodeInteger_signedId hlt] at hbytes
  cases hrest : encodeParamList c.paramTypes c.params with
  | error e =>
    rw [hrest] at hbytes
    cases hbytes
  | ok rest =>
    rw [hrest] at hbytes
    cases hbytes
    exact ⟨rest, rfl, rfl⟩

lemma parseCommand_encode (base : UInt32) (h : c.FromTable index)
    (hbytes : c.format.encode c.params = .ok bytes) (hbuf : buf = pre ++ bytes ++ post)
    (hend : pre.length + bytes.length ≤ msgend) (hsmall : msgend < 2 ^ 8) :
    0 < bytes.length ∧ ∃ args, (parseCommand index base buf msgend pre.length).result =
      .ok (c.parser, args, pre.length + bytes.length) ∧ Carries base buf c.sent args := by
  have hlt := h.lt
  obtain ⟨rest, hrest, rfl⟩ := encode_format h hbytes
  generalize hid : encodeMsgid (UInt16.ofNat c.encodedMsgid) = id at *
  have hmsgid : (commandParseMsgid buf pre.length).result =
      .ok (UInt16.ofNat c.encodedMsgid, pre.length + id.length) := by
    have hparse := commandParseMsgid_encodeMsgid (e := c.encodedMsgid) (by omega) pre (rest ++ post)
    rw [hid] at hparse
    rw [hbuf, ← hparse]
    simp only [List.append_assoc]
  have hpos : 0 < id.length := by
    rw [← hid, length_encodeMsgid]
    split <;> decide
  have hbuf' : buf = pre ++ id ++ rest ++ post := by
    rw [hbuf, List.append_assoc pre id rest]
  obtain ⟨args, hargs, hcarries⟩ := commandParsef_encodeParamList base h.resolves hrest hbuf'
    (by rw [List.length_append] at hend ⊢; omega) hsmall
  rw [List.length_append, h.types] at hargs
  rw [List.length_append]
  refine ⟨by omega, args, ?_, hcarries⟩
  unfold parseCommand
  rw [Reads.result_bind_of_ok hmsgid]
  dsimp only
  rw [Reads.result_bind_of_ok (commandLookupParser_of_fromTable h),
    Reads.result_bind_of_ok hargs, Nat.add_assoc]
  rfl

/-- The handlers return, and the firmware is not shut down by them. -/
def Returns (env : Env σ φ) : Prop :=
  ∀ s, env.isShutdown s = false → ∀ func args,
    (env.func func args (env.irqPoll s)).2 = true ∧
      env.isShutdown (env.func func args (env.irqPoll s)).1 = false

lemma dispatchLoop_encode (hreturns : Returns env) {cmds : List (Command φ)}
    {msgs : List (List UInt8)} (hcmds : ∀ c ∈ cmds, c.FromTable index)
    (hmsgs : List.Forall₂ (fun c m => c.format.encode c.params = .ok m) cmds msgs)
    (hbuf : buf = pre ++ msgs.flatten ++ post) (hend : msgend = pre.length + msgs.flatten.length)
    (hsmall : msgend < 2 ^ 8) {fuel : Nat} (hfuel : msgs.flatten.length ≤ fuel) {s : σ}
    (hs : env.isShutdown s = false) :
    let d := dispatchLoop env index base buf msgend fuel pre.length s
    d.stop = none ∧ List.Forall₂ (fun c call => call.parser = c.parser ∧
      Carries base buf c.sent call.args) cmds d.calls := by
  induction hmsgs generalizing pre fuel s with
  | nil =>
    cases fuel with
    | zero => exact ⟨rfl, .nil⟩
    | succ fuel =>
      rw [dispatchLoop, if_neg (by rw [hend]; exact Nat.lt_irrefl _)]
      exact ⟨rfl, .nil⟩
  | @cons c m cmds msgs hm hmsgs ih =>
    rw [List.flatten_cons] at hbuf hend hfuel
    rw [List.length_append] at hend hfuel
    have hbuf' : buf = pre ++ m ++ msgs.flatten ++ post := by
      rw [hbuf, List.append_assoc pre m msgs.flatten]
    obtain ⟨hpos, args, hparse, hcarries⟩ := parseCommand_encode base
      (hcmds c List.mem_cons_self) hm
      (show buf = pre ++ m ++ (msgs.flatten ++ post) by rw [hbuf', List.append_assoc _ msgs.flatten])
      (by omega) hsmall
    obtain ⟨fuel, rfl⟩ : ∃ k, fuel = k + 1 := Nat.exists_eq_succ_of_ne_zero (by omega)
    obtain ⟨hreturn, hrunning⟩ := hreturns s hs c.parser.func args
    have hround : dispatchRound env index base buf msgend pre.length s =
        ⟨(env.func c.parser.func args (env.irqPoll s)).1, .ok (pre.length + m.length),
          [⟨pre.length, pre.length + m.length, c.parser, args⟩],
          (parseCommand index base buf msgend pre.length).reads⟩ := by
      rw [dispatchRound, hparse]
      simp only [hs, Bool.false_eq_true, false_and, if_false, hreturn, if_true]
    have hnext := ih (fun c hc => hcmds c (List.mem_cons_of_mem _ hc)) hbuf'
      (by rw [List.length_append]; omega) (show msgs.flatten.length ≤ fuel by omega) hrunning
    rw [List.length_append] at hnext
    rw [dispatchLoop, if_pos (by omega), hround]
    exact ⟨hnext.1, .cons ⟨rfl, hcarries⟩ hnext.2⟩

end Dispatch

/-- Commands of the firmware's table that the host encodes and packs into a block are found by a
firmware that expects the block and is not waiting for a SYNC byte. Their handlers are called in
order, with the values that were sent. -/
theorem dispatch_of_packed {σ φ : Type} {env : Env σ φ} {index : List (CommandParser φ)}
    {cmds : List (Command φ)} {sq sq' : SerialQueue} {block : List UInt8} {s : σ} (sync : Sync)
    (hcmds : ∀ c ∈ cmds, c.FromTable index)
    (hencode : List.Forall₂ (fun c m => c.format.encode c.params = .ok m) cmds
      ((packedMessages sq.readyCount sq []).map fun e => e.2.msg))
    (hbuild : buildAndSendCommand sq = some (sq', block))
    (hseq : sync.nextSequence = seqByte sq.sendSeq) (hsync : sync.needSync = false)
    (hs : env.isShutdown s = false) (hreturns : Returns env) (base : UInt32) (rest : List UInt8) :
    (commandFindBlock sync (block ++ rest)).ret = .block ∧
      (commandFindBlock sync (block ++ rest)).popCount = block.length ∧
      let d := commandDispatch env index base (block ++ rest) block.length s
      d.stop = none ∧ List.Forall₂ (fun c call => call.parser = c.parser ∧
        Carries base (block ++ rest) c.sent call.args) cmds d.calls := by
  obtain ⟨⟨sq₁, payload⟩, hpack, hout⟩ := Option.map_eq_some_iff.mp hbuild
  obtain ⟨hsame, hlen⟩ := packMessages_spec hpack (Nat.zero_le _)
  have hsend : sq₁.sendSeq = sq.sendSeq := congrArg Outstanding.sendSeq hsame
  have hpayload := packMessages_payload hpack
  rw [List.nil_append, List.flatMap_def] at hpayload
  obtain rfl : commandAddFrame (seqByte sq.sendSeq) payload = block := by
    cases hout
    rw [hsend]
  have hmax : payload.length ≤ 59 := hlen
  have hvalid : checkBlock (commandAddFrame (seqByte sq.sendSeq) payload) =
      .valid (payload.length + messageMin) :=
    checkBlock_commandAddFrame (by unfold messageMin messageMax; omega) (seqByte_dest sq.sendSeq)
  have hvalid' : checkBlock (commandAddFrame (seqByte sq.sendSeq) payload ++ rest) =
      .valid (payload.length + messageMin) := by
    rw [checkBlock_append (by rw [hvalid]; exact nofun), hvalid]
  have hsecond : (commandAddFrame (seqByte sq.sendSeq) payload ++ rest).getD 1 0 =
      sync.nextSequence := by
    rw [hseq]
    rfl
  obtain ⟨hret, hpop⟩ := commandFindBlock_of_valid hsync hvalid' hsecond
  rw [length_commandAddFrame]
  refine ⟨hret, hpop, ?_⟩
  obtain ⟨trailer, hframe⟩ : ∃ trailer, commandAddFrame (seqByte sq.sendSeq) payload ++ rest =
      [UInt8.ofNat (payload.length + messageMin), seqByte sq.sendSeq] ++ payload ++ trailer :=
    ⟨_, List.append_assoc _ _ rest⟩
  unfold commandDispatch
  rw [show payload.length + messageMin - messageTrailerSize = 2 + payload.length by
    unfold messageMin messageTrailerSize; omega]
  rw [hpayload] at hframe hmax ⊢
  exact dispatchLoop_encode hreturns hcmds hencode hframe rfl
    (Nat.lt_of_le_of_lt (Nat.add_le_add_left hmax 2) (by decide)) (Nat.le_add_right _ _) hs

section Example

/-- A table with `identify` and with a command that has a buffer. -/
def exampleTable : List (CommandParser Nat) :=
  [buildCommandParser [] false 0, buildCommandParser [.int .uint32, .int .byte] true 1,
    buildCommandParser [.int .byte, .buffer] false 2]

def identifyCommand : Command Nat where
  encodedMsgid := 1
  parser := buildCommandParser [.int .uint32, .int .byte] true 1
  paramTypes := [⟨.int .uint32, none⟩, ⟨.int .byte, none⟩]
  params := [.int 40, .int 40]
  sent := [.int 40, .int 40]

def bufferCommand : Command Nat where
  encodedMsgid := 2
  parser := buildCommandParser [.int .byte, .buffer] false 2
  paramTypes := [⟨.int .byte, none⟩, ⟨.buffer, none⟩]
  params := [.int (-1), .bytes [1, 2, 3]]
  sent := [.int (-1), .bytes [1, 2, 3]]

def exampleFirmware : Env Unit Nat := ⟨fun _ => false, id, id, fun _ _ s => (s, true)⟩

/-- A host with messages in one ready queue. -/
def readyHost (msgs : List (List UInt8)) : SerialQueue where
  needSync := false
  receiveWindow := 0
  sendSeq := 1
  receiveSeq := 1
  ignoreNakSeq := 0
  lastAckSeq := 0
  retransmitSeq := 0
  sentQueue := []
  retransmitTimer := .never
  commandQueue := fun _ => ⟨msgs.map fun msg => ⟨msg, 0, 0, 0⟩, []⟩
  pendingQueues := [0]
  readyBytes := sumLength msgs
  upcomingBytes := 0
  needAckBytes := 0
  lastAckBytes := 0
  needKickClock := maxClock
  notifyQueue := []
  receiveQueue := []

lemma fromTable_identifyCommand : identifyCommand.FromTable exampleTable :=
  ⟨by decide, by decide, rfl, rfl, rfl, ⟨by decide, by decide⟩, rfl, ⟨by decide, by decide⟩, trivial⟩

lemma fromTable_bufferCommand : bufferCommand.FromTable exampleTable :=
  ⟨by decide, by decide, rfl, rfl, rfl, ⟨by decide, by decide⟩, rfl, trivial, trivial⟩

/-- The two commands arrive at their handlers. -/
theorem dispatch_of_packed_pair :
    ∃ sq' block, buildAndSendCommand (readyHost [[1, 40, 40], [2, 127, 3, 1, 2, 3]]) =
        some (sq', block) ∧
      (commandFindBlock ⟨false, false, seqByte 1⟩ (block ++ [])).ret = .block ∧
      List.Forall₂ (fun c call => call.parser = c.parser ∧ Carries 0 (block ++ []) c.sent call.args)
        [identifyCommand, bufferCommand]
        (commandDispatch exampleFirmware exampleTable 0 (block ++ []) block.length ()).calls := by
  have hsome : (buildAndSendCommand (readyHost [[1, 40, 40], [2, 127, 3, 1, 2, 3]])).isSome := by
    decide +kernel
  obtain ⟨⟨sq', block⟩, hbuild⟩ := Option.isSome_iff_exists.mp hsome
  have htable : ∀ c ∈ [identifyCommand, bufferCommand], c.FromTable exampleTable := by
    intro c hc
    rcases List.mem_pair.mp hc with rfl | rfl
    · exact fromTable_identifyCommand
    · exact fromTable_bufferCommand
  have hencode : List.Forall₂ (fun c m => c.format.encode c.params = .ok m)
      [identifyCommand, bufferCommand]
      ((packedMessages (readyHost [[1, 40, 40], [2, 127, 3, 1, 2, 3]]).readyCount
        (readyHost [[1, 40, 40], [2, 127, 3, 1, 2, 3]]) []).map fun e => e.2.msg) := by
    rw [show (packedMessages _ (readyHost [[1, 40, 40], [2, 127, 3, 1, 2, 3]]) []).map
      (fun e => e.2.msg) = [[1, 40, 40], [2, 127, 3, 1, 2, 3]] by decide +kernel]
    exact .cons (by decide +kernel) (.cons (by decide +kernel) .nil)
  obtain ⟨hret, -, -, hcalls⟩ := dispatch_of_packed ⟨false, false, seqByte 1⟩ htable
    hencode hbuild rfl rfl rfl (fun _ _ _ _ => ⟨rfl, rfl⟩ : Returns exampleFirmware) 0 []
  exact ⟨sq', block, hbuild, hret, hcalls⟩

/-- A firmware that waits for a SYNC byte discards the block, although its sequence number is the
expected one. -/
theorem not_found_of_needSync :
    (∃ sq', buildAndSendCommand (readyHost [[1, 40, 40]]) =
      some (sq', commandAddFrame (seqByte 1) [1, 40, 40])) ∧
    identifyCommand.format.encode identifyCommand.params = .ok [1, 40, 40] ∧
    (commandFindBlock ⟨true, true, seqByte 1⟩ (commandAddFrame (seqByte 1) [1, 40, 40])).ret ≠
      .block := by
  refine ⟨⟨_, rfl⟩, by decide +kernel, by decide +kernel⟩

end Example

end KlipperMcu.Commands
