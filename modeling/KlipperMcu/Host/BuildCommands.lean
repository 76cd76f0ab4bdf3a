import KlipperMcu.Firmware.Dispatch
import KlipperMcu.Host.MsgProto
import Mathlib.Data.List.Dedup

/-!
# Assigning message ids

`HandleCommandGeneration` of buildcommands.py collects the messages of a firmware and numbers them.
The firmware uses these encoded ids. The host gets them as signed numbers, which it encodes like any
other integer.

The numbers below `2 ^ 14` are accepted. From 0x3fe0 on they stand for the signed numbers from -32
on, which the encoded ids from 0x60 to 0x7f stand for too.
-/

namespace KlipperMcu.BuildCommands

open Lib Wire MsgProto

def defaultMessages : List (String × Nat) :=
  [("identify_response offset=%u data=%.*s", 0), ("identify offset=%u count=%c", 1)]

/-- `msg.split()[0]`. -/
def firstWord (msg : String) : String :=
  String.ofList ((msg.toList.dropWhile Char.isWhitespace).takeWhile fun c => !c.isWhitespace)

/-- Sets an entry of a dictionary. A new entry comes last. -/
def insert {β : Type} (d : List (String × β)) (k : String) (v : β) : List (String × β) :=
  if (d.lookup k).isSome then d.map fun e => if e.1 = k then (k, v) else e else d ++ [(k, v)]

structure CommandGeneration where
  commands : List (String × String × String)
  encoders : List (Option String × String)
  msgToEncid : List (String × Nat)
  messagesByName : List (String × String)

def CommandGeneration.init : CommandGeneration where
  commands := []
  encoders := []
  msgToEncid := defaultMessages
  messagesByName := defaultMessages.map fun m => (firstWord m.1, m.1)

/-- The requests of the compiled files. -/
inductive Request where
  | declCommandFlags (funcname flags msg : String)
  | declEncoder (msg : String)
  | declOutput (msg : String)
deriving DecidableEq, Repr

/-- A message name can only be declared with one format. -/
def declName (g : CommandGeneration) (kind msg : String) : Except String CommandGeneration :=
  let msgname := firstWord msg
  if g.messagesByName.lookup msgname = none ∨ g.messagesByName.lookup msgname = some msg then
    .ok { g with messagesByName := insert g.messagesByName msgname msg }
  else .error ("Conflicting definition for " ++ kind ++ " '" ++ msgname ++ "'")

def declCommand (g : CommandGeneration) (funcname flags msg : String) :
    Except String CommandGeneration :=
  let msgname := firstWord msg
  if (g.commands.lookup msgname).isSome then
    .error ("Multiple definitions for command '" ++ msgname ++ "'")
  else declName { g with commands := insert g.commands msgname (funcname, flags) } "command" msg

def declEncoder (g : CommandGeneration) (msg : String) : Except String CommandGeneration :=
  (declName g "message" msg).map fun g =>
    { g with encoders := g.encoders ++ [(some (firstWord msg), msg)] }

def declOutput (g : CommandGeneration) (msg : String) : CommandGeneration :=
  { g with encoders := g.encoders ++ [(none, msg)] }

def CommandGeneration.handle (g : CommandGeneration) : Request → Except String CommandGeneration
  | .declCommandFlags funcname flags msg => declCommand g funcname flags msg
  | .declEncoder msg => declEncoder g msg
  | .declOutput msg => .ok (declOutput g msg)

/-- `convert_encoded_msgid`: how the host reads an encoded id. -/
def convertEncodedMsgid (encodedMsgid : Nat) : Option Int :=
  let data :=
    if encodedMsgid ≥ 0x80 then
      [UInt8.ofNat (encodedMsgid >>> 7 ||| 0x80), UInt8.ofNat (encodedMsgid &&& 0x7f)]
    else [UInt8.ofNat encodedMsgid]
  (parseInteger .int32 data 0).map Prod.fst

/-- A round of the loop of `create_message_ids`: the ids so far and the last one. -/
def assignId (messagesByName : List (String × String)) (ids : List (String × Nat) × Nat)
    (msgname : String) : List (String × Nat) × Nat :=
  let msg := (messagesByName.lookup msgname).getD msgname
  if (ids.1.lookup msg).isSome then ids else (insert ids.1 msg (ids.2 + 1), ids.2 + 1)

def createMessageIds (g : CommandGeneration) : Except String CommandGeneration :=
  let mlist := g.commands.map Prod.fst ++ g.encoders.map Prod.snd
  let ids := mlist.foldl (assignId g.messagesByName)
    (g.msgToEncid, (g.msgToEncid.map Prod.snd).foldl max 0)
  if ids.2 ≥ 1 <<< 14 then .error "Too many message ids" else .ok { g with msgToEncid := ids.1 }

/-- What the requests of a firmware generate. -/
def generate (requests : List Request) : Except String CommandGeneration := do
  let g ← requests.foldlM CommandGeneration.handle CommandGeneration.init
  createMessageIds g

/-- What `create_message_ids` looks up for a request. -/
def Request.entry : Request → String
  | .declCommandFlags _ _ msg => firstWord msg
  | .declEncoder msg => msg
  | .declOutput msg => msg

def Request.declared : Request → List (String × String)
  | .declCommandFlags _ _ msg => [(firstWord msg, msg)]
  | .declEncoder msg => [(firstWord msg, msg)]
  | .declOutput _ => []

/-- The names of the messages with their formats. -/
def names (requests : List Request) : List (String × String) :=
  CommandGeneration.init.messagesByName ++ requests.flatMap Request.declared

/-- The different messages of a firmware. A name stands for the format that is declared for it. -/
def messages (requests : List Request) : List String :=
  (defaultMessages.map Prod.fst ++
    requests.map fun r => ((names requests).lookup r.entry).getD r.entry).dedup

/-- The ids that the host is given. -/
def CommandGeneration.msgToMsgid (g : CommandGeneration) : List (String × Int) :=
  g.msgToEncid.filterMap fun m => (convertEncodedMsgid m.2).map fun msgid => (m.1, msgid)

section Ids

variable {e : Nat}

/-- The number of bytes behind the first one of an encoded id. -/
def idMore (e : Nat) : Nat := if e ≥ 0x80 then 1 else 0

/-- The signed number for an encoded id. -/
def signedId (e : Nat) : Int :=
  if e < 0x60 then e else if e < 0x80 then e - 0x80 else if e < 0x3000 then e else e - 0x4000

lemma shiftRight_or (h : e < 2 ^ 14) : e >>> 7 ||| 0x80 = e / 128 + 128 := by
  have hlt : e / 128 < 2 ^ 7 := by omega
  rw [Nat.shiftRight_eq_div_pow, Nat.lor_comm, Nat.add_comm]
  exact (Nat.two_pow_add_eq_or_of_lt hlt 1).symm

lemma data_eq (h : e < 2 ^ 14) :
    (if e ≥ 0x80 then [UInt8.ofNat (e >>> 7 ||| 0x80), UInt8.ofNat (e &&& 0x7f)]
      else [UInt8.ofNat e]) = Vlq.digits (idMore e) e := by
  have hand : e &&& 0x7f = e % 128 := Nat.and_two_pow_sub_one_eq_mod e 7
  unfold idMore
  split
  · rw [shiftRight_or h, hand, Vlq.digits, Vlq.digits, digit_natCast, digit_natCast, pow_one,
      pow_zero, Nat.div_one, Nat.mod_eq_of_lt (a := e / 128) (by omega)]
  · rw [Vlq.digits, digit_natCast, pow_zero, Nat.div_one, Nat.mod_eq_of_lt (by omega)]

lemma encodeMsgid_eq (h : e < 2 ^ 14) :
    encodeMsgid (UInt16.ofNat e) = Vlq.digits (idMore e) e := by
  have hnat : (UInt16.ofNat e).toNat = e := by
    rw [UInt16.toNat_ofNat']
    omega
  have hge : UInt16.ofNat e ≥ 0x80 ↔ e ≥ 0x80 := by
    rw [ge_iff_le, UInt16.le_iff_toNat_le, hnat]
    rfl
  have hhigh : (UInt16.ofNat e >>> 7 ||| 0x80).toUInt8 = UInt8.ofNat (e >>> 7 ||| 0x80) := by
    rw [← UInt8.toNat_inj, UInt16.toNat_toUInt8, UInt16.toNat_or, UInt16.toNat_shiftRight, hnat,
      UInt8.toNat_ofNat']
    rfl
  have hlow : (UInt16.ofNat e &&& 0x7f).toUInt8 = UInt8.ofNat (e &&& 0x7f) := by
    rw [← UInt8.toNat_inj, UInt16.toNat_toUInt8, UInt16.toNat_and, hnat, UInt8.toNat_ofNat']
    rfl
  rw [← data_eq h, encodeMsgid, hhigh, hlow]
  by_cases hbig : e ≥ 0x80
  · rw [if_pos (hge.mpr hbig), if_pos hbig]
  · have hand : e &&& 0x7f = e := by
      rw [show e &&& 0x7f = e % 128 from Nat.and_two_pow_sub_one_eq_mod e 7]
      omega
    rw [if_neg fun hb => hbig (hge.mp hb), if_neg hbig, hand]

lemma fits_signedId (h : e < 2 ^ 14) : Vlq.Fits (idMore e) (signedId e) := by
  unfold idMore signedId Vlq.Fits
  split_ifs <;> omega

lemma digits_signedId (h : e < 2 ^ 14) :
    Vlq.digits (idMore e) (signedId e) = Vlq.digits (idMore e) e := by
  apply Vlq.digits_congr
  unfold idMore signedId
  split_ifs <;> omega

lemma parseInteger_encodeMsgid (h : e < 2 ^ 14) (pre post : List UInt8) :
    parseInteger .int32 (pre ++ encodeMsgid (UInt16.ofNat e) ++ post) pre.length =
      some (signedId e, pre.length + (encodeMsgid (UInt16.ofNat e)).length) := by
  rw [parseInteger_eq, List.append_assoc, List.drop_left, encodeMsgid_eq h, ← digits_signedId h,
    Vlq.decode_digits (fits_signedId h), Vlq.length_digits]
  rfl

lemma convertEncodedMsgid_eq (h : e < 2 ^ 14) : convertEncodedMsgid e = some (signedId e) := by
  have hdecode := Vlq.decode_digits (fits_signedId h) []
  rw [List.append_nil, digits_signedId h] at hdecode
  unfold convertEncodedMsgid
  dsimp only
  rw [data_eq h, parseInteger_eq, List.drop_zero, hdecode]
  rfl

/-- Below 0x3fe0 the host writes a signed id as the firmware writes the encoded one. -/
lemma encodeInteger_signedId (h : e < 0x3fe0) :
    encodeInteger (signedId e) = encodeMsgid (UInt16.ofNat e) := by
  have hmore : moreBytes (signedId e) = idMore e := by
    unfold moreBytes idMore signedId
    split_ifs <;> omega
  have hlt : e < 2 ^ 14 := by omega
  rw [encodeInteger_eq, hmore, digits_signedId hlt, encodeMsgid_eq hlt]

lemma signedId_injective {e' : Nat} (h : e < 0x3fe0) (h' : e' < 0x3fe0)
    (heq : signedId e = signedId e') : e = e' := by
  unfold signedId at heq
  split_ifs at heq <;> omega

lemma commandParseMsgid_encodeMsgid (h : e < 2 ^ 14) (pre post : List UInt8) :
    (commandParseMsgid (pre ++ encodeMsgid (UInt16.ofNat e) ++ post) pre.length).result =
      .ok (UInt16.ofNat e, pre.length + (encodeMsgid (UInt16.ofNat e)).length) := by
  rw [encodeMsgid_eq h, Vlq.length_digits]
  by_cases hbig : e ≥ 0x80
  · have hmore : idMore e = 1 := if_pos hbig
    have hhigh : (UInt8.ofNat (Vlq.digit e 1 + 128)).toNat = e / 128 + 128 := by
      rw [Vlq.toNat_more, digit_natCast]
      omega
    have hlow : (UInt8.ofNat (Vlq.digit e 0)).toNat = e % 128 := by
      rw [Vlq.toNat_last, digit_natCast, pow_zero, Nat.div_one]
    have hlt : e % 128 < 2 ^ 7 := Nat.mod_lt _ (by decide)
    rw [hmore, Vlq.digits, Vlq.digits,
      commandParseMsgid_of_ge (c := UInt8.ofNat (Vlq.digit e 1 + 128))
        (d := UInt8.ofNat (Vlq.digit e 0)) (by simp) (by omega) (by simp)]
    congr 2
    rw [← UInt16.toNat_inj, UInt16.toNat_or, UInt16.toNat_shiftLeft, UInt8.toNat_toUInt16,
      UInt8.toNat_toUInt16, toNat_and_0x7f, hhigh, hlow, UInt16.toNat_ofNat']
    change ((e / 128 + 128) % 128) <<< 7 % 2 ^ 16 ||| e % 128 = e % 2 ^ 16
    rw [Nat.shiftLeft_eq, show (e / 128 + 128) % 128 * 2 ^ 7 % 2 ^ 16 = 2 ^ 7 * (e / 128) by omega,
      ← Nat.two_pow_add_eq_or_of_lt hlt]
    omega
  · have hmore : idMore e = 0 := if_neg hbig
    have hlow : (UInt8.ofNat (Vlq.digit e 0)).toNat = e := by
      rw [Vlq.toNat_last, digit_natCast, pow_zero, Nat.div_one]
      omega
    rw [hmore, Vlq.digits,
      commandParseMsgid_of_lt (c := UInt8.ofNat (Vlq.digit e 0)) (by simp) (by omega)]
    congr 2
    rw [← UInt16.toNat_inj, UInt8.toNat_toUInt16, hlow, UInt16.toNat_ofNat']
    omega

end Ids

section Numbering

variable {g g' : CommandGeneration} {ids : List (String × Nat) × Nat}

lemma insert_of_isNone {β : Type} {d : List (String × β)} {k : String}
    (h : ¬(d.lookup k).isSome) (v : β) : insert d k v = d ++ [(k, v)] := if_neg h

lemma lookup_isSome_iff_mem {β : Type} {d : List (String × β)} {k : String} :
    (d.lookup k).isSome ↔ k ∈ d.map Prod.fst := by
  rw [List.lookup_isSome_iff, List.mem_map]
  exact exists_congr fun e => and_congr_right fun _ => beq_iff_eq.trans eq_comm

lemma lookup_map_set {β : Type} (d : List (String × β)) (k : String) (v : β) (n : String) :
    (d.map fun e => if e.1 = k then (k, v) else e).lookup n =
      if n = k then (d.lookup k).map fun _ => v else d.lookup n := by
  induction d with
  | nil => simp
  | cons e d ih =>
    rw [List.map_cons, List.lookup_cons, List.lookup_cons]
    grind

lemma lookup_insert {β : Type} {d : List (String × β)} {k : String} {v : β}
    (h : d.lookup k = none ∨ d.lookup k = some v) (n : String) :
    (insert d k v).lookup n = (d ++ [(k, v)]).lookup n := by
  unfold insert
  split
  · rename_i hsome
    have hv := h.resolve_left fun hnone => by rw [hnone] at hsome; cases hsome
    rw [lookup_map_set, List.lookup_append, hv]
    split
    · rename_i heq
      rw [heq, hv]
      rfl
    · rename_i hne
      rw [List.lookup_cons, beq_eq_false_iff_ne.mpr hne, List.lookup_nil, Option.or_none]
  · rfl

/-- The messages are numbered from 0 on, and the last number is the last id. -/
structure Numbered (ids : List (String × Nat) × Nat) : Prop where
  nodup : (ids.1.map Prod.fst).Nodup
  values : ids.1.map Prod.snd = List.range ids.1.length
  length : ids.1.length = ids.2 + 1

lemma Numbered.assignId (h : Numbered ids) (names : List (String × String)) (msgname : String) :
    Numbered (BuildCommands.assignId names ids msgname) := by
  unfold BuildCommands.assignId
  dsimp only
  split
  · exact h
  · rename_i hnew
    rw [insert_of_isNone hnew]
    rw [lookup_isSome_iff_mem] at hnew
    refine ⟨?_, ?_, ?_⟩
    · rw [List.map_append, List.map_singleton, ← List.concat_eq_append]
      exact h.nodup.concat hnew
    · rw [List.map_append, h.values, List.length_append, List.length_singleton, List.range_succ,
        h.length]
      rfl
    · rw [List.length_append, List.length_singleton, h.length]

lemma Numbered.foldl (h : Numbered ids) (names : List (String × String)) (mlist : List String) :
    Numbered (mlist.foldl (BuildCommands.assignId names) ids) := by
  induction mlist generalizing ids with
  | nil => exact h
  | cons msgname mlist ih => exact ih (h.assignId names msgname)

lemma mem_foldl_assignId (names : List (String × String)) (mlist : List String) (m : String) :
    m ∈ (mlist.foldl (assignId names) ids).1.map Prod.fst ↔
      m ∈ ids.1.map Prod.fst ∨ ∃ n ∈ mlist, (names.lookup n).getD n = m := by
  induction mlist generalizing ids with
  | nil => simp
  | cons msgname mlist ih =>
    have hstep : m ∈ (assignId names ids msgname).1.map Prod.fst ↔
        m ∈ ids.1.map Prod.fst ∨ (names.lookup msgname).getD msgname = m := by
      unfold assignId
      dsimp only
      split
      · rename_i hold
        rw [lookup_isSome_iff_mem] at hold
        exact ⟨Or.inl, fun h => h.elim id fun heq => heq ▸ hold⟩
      · rename_i hnew
        rw [insert_of_isNone hnew, List.map_append, List.mem_append, eq_comm]
        simp
    rw [List.foldl_cons, ih, hstep, or_assoc]
    simp only [List.mem_cons, exists_eq_or_imp]

/-- What was collected from the requests. -/
structure Collected (requests : List Request) (g : CommandGeneration) : Prop where
  names : ∀ n, g.messagesByName.lookup n = (names requests).lookup n
  entries : ∀ n, n ∈ g.commands.map Prod.fst ∨ n ∈ g.encoders.map Prod.snd ↔
    n ∈ requests.map Request.entry
  msgToEncid : g.msgToEncid = defaultMessages

variable {requests : List Request} {r : Request}

lemma names_append (requests : List Request) (r : Request) :
    names (requests ++ [r]) = names requests ++ r.declared := by
  unfold names
  rw [List.flatMap_append, List.flatMap_singleton, List.append_assoc]

lemma declName_ok {kind msg : String} (h : declName g kind msg = .ok g') :
    g' = { g with messagesByName := insert g.messagesByName (firstWord msg) msg } ∧
      ∀ n, g'.messagesByName.lookup n = (g.messagesByName ++ [(firstWord msg, msg)]).lookup n := by
  unfold declName at h
  dsimp only at h
  split at h
  · rename_i hname
    cases h
    exact ⟨rfl, lookup_insert hname⟩
  · cases h

lemma Collected.declared (h : Collected requests g) {msg : String}
    (hr : r.declared = [(firstWord msg, msg)])
    (hnames : ∀ n, g'.messagesByName.lookup n = (g.messagesByName ++ [(firstWord msg, msg)]).lookup n)
    (n : String) : g'.messagesByName.lookup n = (BuildCommands.names (requests ++ [r])).lookup n := by
  rw [hnames, names_append, hr, List.lookup_append, List.lookup_append, h.names]

lemma Collected.handle (h : Collected requests g) (hr : g.handle r = .ok g') :
    Collected (requests ++ [r]) g' := by
  have hentries (n : String) : n ∈ (requests ++ [r]).map Request.entry ↔
      (n ∈ g.commands.map Prod.fst ∨ n ∈ g.encoders.map Prod.snd) ∨ n = r.entry := by
    rw [List.map_append, List.mem_append, ← h.entries, List.map_singleton, List.mem_singleton]
  cases r with
  | declCommandFlags funcname flags msg =>
    change declCommand g funcname flags msg = .ok g' at hr
    unfold declCommand at hr
    dsimp only at hr
    split at hr
    · cases hr
    · rename_i hnew
      obtain ⟨rfl, hnames⟩ := declName_ok hr
      refine ⟨h.declared rfl hnames, fun n => ?_, h.msgToEncid⟩
      dsimp only
      rw [hentries, insert_of_isNone hnew, List.map_append, List.mem_append, List.map_singleton,
        List.mem_singleton]
      exact or_right_comm
  | declEncoder msg =>
    change declEncoder g msg = .ok g' at hr
    unfold declEncoder at hr
    cases hd : declName g "message" msg with
    | error e =>
      rw [hd] at hr
      cases hr
    | ok g₁ =>
      rw [hd] at hr
      cases hr
      obtain ⟨rfl, hnames⟩ := declName_ok hd
      refine ⟨h.declared rfl hnames, fun n => ?_, h.msgToEncid⟩
      rw [hentries, List.map_append, List.mem_append, List.map_singleton, List.mem_singleton, or_assoc]
      rfl
  | declOutput msg =>
    cases hr
    refine ⟨fun n => ?_, fun n => ?_, h.msgToEncid⟩
    · rw [names_append, Request.declared, List.append_nil]
      exact h.names n
    · rw [hentries, declOutput, List.map_append, List.mem_append, List.map_singleton,
        List.mem_singleton, or_assoc]
      rfl

lemma Collected.foldlM {more : List Request} (h : Collected requests g)
    (hm : more.foldlM CommandGeneration.handle g = .ok g') : Collected (requests ++ more) g' := by
  induction more generalizing requests g with
  | nil =>
    cases hm
    rwa [List.append_nil]
  | cons r more ih =>
    rw [List.foldlM_cons] at hm
    cases hr : g.handle r with
    | error e =>
      rw [hr] at hm
      cases hm
    | ok g₁ =>
      rw [hr] at hm
      rw [List.append_cons]
      exact ih (h.handle hr) hm

lemma collected_of_foldlM
    (h : requests.foldlM CommandGeneration.handle CommandGeneration.init = .ok g) :
    Collected requests g := by
  have hinit : Collected [] CommandGeneration.init := ⟨fun _ => rfl, fun _ => or_self_iff, rfl⟩
  exact hinit.foldlM h

/-- The ids before it is checked that there are not too many. -/
def allIds (g : CommandGeneration) : List (String × Nat) × Nat :=
  (g.commands.map Prod.fst ++ g.encoders.map Prod.snd).foldl (assignId g.messagesByName)
    (g.msgToEncid, (g.msgToEncid.map Prod.snd).foldl max 0)

lemma Collected.numbered (h : Collected requests g) : Numbered (allIds g) := by
  apply Numbered.foldl
  rw [h.msgToEncid]
  exact ⟨by decide, by decide, by decide⟩

lemma Collected.length_allIds (h : Collected requests g) :
    (allIds g).1.length = (messages requests).length := by
  rw [← List.length_map Prod.fst]
  apply List.Perm.length_eq
  apply (List.perm_ext_iff_of_nodup h.numbered.nodup (List.nodup_dedup _)).mpr
  intro m
  rw [allIds, mem_foldl_assignId, List.mem_dedup, List.mem_append, h.msgToEncid]
  refine or_congr_right ⟨?_, ?_⟩
  · rintro ⟨n, hn, rfl⟩
    obtain ⟨r, hr, rfl⟩ := List.mem_map.mp ((h.entries n).mp (List.mem_append.mp hn))
    rw [h.names]
    exact List.mem_map_of_mem hr
  · intro hm
    obtain ⟨r, hr, rfl⟩ := List.mem_map.mp hm
    refine ⟨r.entry, List.mem_append.mpr ?_, by rw [h.names]⟩
    exact (h.entries _).mpr (List.mem_map_of_mem hr)

lemma numbered_of_generate (h : generate requests = .ok g) :
    g.msgToEncid.map Prod.snd = List.range g.msgToEncid.length ∧ g.msgToEncid.length ≤ 2 ^ 14 ∧
      g.msgToEncid.length = (messages requests).length := by
  unfold generate at h
  cases hr : requests.foldlM CommandGeneration.handle CommandGeneration.init with
  | error e =>
    rw [hr] at h
    cases h
  | ok g₁ =>
    rw [hr] at h
    have hcollected := collected_of_foldlM hr
    change (if (allIds g₁).2 ≥ 2 ^ 14 then _ else _) = _ at h
    split at h
    · cases h
    · cases h
      have hlen := hcollected.numbered.length
      refine ⟨hcollected.numbered.values, ?_, hcollected.length_allIds⟩
      change (allIds g₁).1.length ≤ _
      omega

lemma msgToMsgid_eq (h : g.msgToEncid.map Prod.snd = List.range g.msgToEncid.length)
    (hle : g.msgToEncid.length ≤ 2 ^ 14) :
    g.msgToMsgid.map Prod.snd = (List.range g.msgToEncid.length).map signedId := by
  have hsome : ∀ m ∈ g.msgToEncid, convertEncodedMsgid m.2 = some (signedId m.2) := by
    intro m hm
    apply convertEncodedMsgid_eq
    have hrange := List.mem_map_of_mem (f := Prod.snd) hm
    rw [h, List.mem_range] at hrange
    omega
  have hmap : g.msgToMsgid = g.msgToEncid.map fun m => (m.1, signedId m.2) := by
    unfold CommandGeneration.msgToMsgid
    rw [← List.filterMap_eq_map]
    apply List.filterMap_congr
    intro m hm
    rw [hsome m hm]
    rfl
  rw [hmap, List.map_map, ← h, List.map_map]
  rfl

/-- More messages than 0x3fe0 share a signed id: 0x60 and 0x3fe0 both stand for -32. -/
lemma nodup_signedId_iff (n : Nat) :
    ((List.range n).map signedId).Nodup ↔ n ≤ 0x3fe0 := by
  constructor
  · intro hnodup
    by_contra hlong
    have hinj := List.inj_on_of_nodup_map hnodup
    have heq := hinj (x := 0x60) (y := 0x3fe0) (List.mem_range.mpr (by omega))
      (List.mem_range.mpr (by omega)) (by decide)
    cases heq
  · intro hle
    apply List.Nodup.map_on _ List.nodup_range
    intro e he e' he' heq
    rw [List.mem_range] at he he'
    exact signedId_injective (by omega) (by omega) heq

end Numbering

/-- The firmware parses what the host sends for an encoded id as this id, and the host parses what
the firmware sends for it as the signed id. -/
def Agrees (encodedMsgid : Nat) : Prop :=
  ∃ msgid, convertEncodedMsgid encodedMsgid = some msgid ∧ ∀ pre post,
    (commandParseMsgid (pre ++ encodeInteger msgid ++ post) pre.length).result =
        .ok (UInt16.ofNat encodedMsgid, pre.length + (encodeInteger msgid).length) ∧
      parseInteger .int32 (pre ++ encodeMsgid (UInt16.ofNat encodedMsgid) ++ post) pre.length =
        some (msgid, pre.length + (encodeMsgid (UInt16.ofNat encodedMsgid)).length)

lemma agrees_of_lt {e : Nat} (h : e < 0x3fe0) : Agrees e := by
  have hlt : e < 2 ^ 14 := by omega
  refine ⟨signedId e, convertEncodedMsgid_eq hlt, fun pre post => ⟨?_, ?_⟩⟩
  · rw [encodeInteger_signedId h]
    exact commandParseMsgid_encodeMsgid hlt pre post
  · exact parseInteger_encodeMsgid hlt pre post

/-- The ids of an accepted firmware are distinct, and the host and the firmware agree on them,
exactly when it has at most 0x3fe0 messages. -/
theorem generate_ids_iff {requests : List Request} {g : CommandGeneration}
    (h : generate requests = .ok g) :
    (g.msgToMsgid.map Prod.snd).Nodup ∧ (∀ m ∈ g.msgToEncid, Agrees m.2) ↔
      (messages requests).length ≤ 0x3fe0 := by
  obtain ⟨hvalues, hle, hmessages⟩ := numbered_of_generate h
  rw [msgToMsgid_eq hvalues hle, nodup_signedId_iff, hmessages]
  constructor
  · exact And.left
  · intro hfew
    refine ⟨hfew, fun m hm => agrees_of_lt ?_⟩
    have hrange := List.mem_map_of_mem (f := Prod.snd) hm
    rw [hvalues, List.mem_range] at hrange
    omega

/-- A firmware with the command `identify` and a response. -/
def fewMessages : List Request :=
  [.declCommandFlags "command_identify" "HF_IN_SHUTDOWN" "identify offset=%u count=%c",
    .declEncoder "uptime high=%u clock=%u"]

theorem generate_ids_fewMessages :
    ∃ g, generate fewMessages = .ok g ∧ (g.msgToMsgid.map Prod.snd).Nodup ∧
      ∀ m ∈ g.msgToEncid, Agrees m.2 :=
  ⟨_, rfl, (generate_ids_iff (show generate fewMessages = .ok _ from rfl)).mpr (by decide)⟩

section Many

/-- A number of output messages. -/
def manyOutputs (n : Nat) : List String :=
  (List.range n).map fun i => String.ofList (List.replicate (i + 1) 'x')

def manyMessages (n : Nat) : List Request :=
  .declCommandFlags "command_identify" "HF_IN_SHUTDOWN" "identify offset=%u count=%c" ::
    (manyOutputs n).map .declOutput

lemma foldlM_declOutput (msgs : List String) (g : CommandGeneration) :
    (msgs.map Request.declOutput).foldlM CommandGeneration.handle g =
      .ok { g with encoders := g.encoders ++ msgs.map (none, ·) } := by
  induction msgs generalizing g with
  | nil =>
    rw [List.map_nil, List.map_nil, List.append_nil]
    rfl
  | cons msg msgs ih =>
    rw [List.map_cons, List.foldlM_cons]
    change (msgs.map Request.declOutput).foldlM CommandGeneration.handle (declOutput g msg) = _
    rw [ih, declOutput, List.append_assoc]
    rfl

lemma nodup_manyOutputs (n : Nat) : (manyOutputs n).Nodup := by
  apply List.Nodup.map _ List.nodup_range
  intro i j hij
  have hlen := congrArg (fun s : String => s.toList.length) hij
  simpa using hlen

lemma ne_of_mem_manyOutputs {n : Nat} {m k : String} (hm : m ∈ manyOutputs n)
    (hk : ∃ c ∈ k.toList, c ≠ 'x') : m ≠ k := by
  rintro rfl
  obtain ⟨i, -, rfl⟩ := List.mem_map.mp hm
  obtain ⟨c, hc, hne⟩ := hk
  rw [String.toList_ofList] at hc
  exact hne (List.eq_of_mem_replicate hc)

lemma length_messages_manyMessages (n : Nat) : (messages (manyMessages n)).length = n + 2 := by
  have hother {m : String} (hm : m ∈ manyOutputs n) {k : String} (hk : 'i' ∈ k.toList) : m ≠ k :=
    ne_of_mem_manyOutputs hm ⟨'i', hk, by decide⟩
  have hnames : names (manyMessages n) =
      [("identify_response", "identify_response offset=%u data=%.*s"),
        ("identify", "identify offset=%u count=%c"), ("identify", "identify offset=%u count=%c")] := by
    have hnone : ((manyOutputs n).map Request.declOutput).flatMap Request.declared = [] := by
      simp [Request.declared]
    rw [names, manyMessages, List.flatMap_cons, hnone]
    decide
  have hmap : ((manyMessages n).map fun r =>
      ((names (manyMessages n)).lookup r.entry).getD r.entry) =
      "identify offset=%u count=%c" :: manyOutputs n := by
    rw [hnames, manyMessages, List.map_cons, List.map_map]
    congr 1
    nth_rewrite 2 [← List.map_id (manyOutputs n)]
    apply List.map_congr_left
    intro m hm
    have hname := hother hm (k := "identify_response") (by decide)
    have hname' := hother hm (k := "identify") (by decide)
    simp [Request.entry, List.lookup_cons, beq_eq_false_iff_ne.mpr, hname, hname']
  have hidentify : "identify offset=%u count=%c" ∉ manyOutputs n := fun hm =>
    hother hm (by decide) rfl
  have hresponse : "identify_response offset=%u data=%.*s" ∉ manyOutputs n := fun hm =>
    hother hm (by decide) rfl
  rw [messages, hmap, defaultMessages, List.map_cons, List.map_singleton, List.cons_append,
    List.singleton_append, List.dedup_cons_of_notMem (by simp [hresponse]),
    List.dedup_cons_of_mem List.mem_cons_self, List.dedup_cons_of_notMem hidentify,
    (nodup_manyOutputs n).dedup]
  simp [manyOutputs]

lemma generate_manyMessages {n : Nat} (h : n + 2 ≤ 2 ^ 14) :
    ∃ g, generate (manyMessages n) = .ok g ∧ g.msgToEncid.length = n + 2 := by
  obtain ⟨g, hg⟩ : ∃ g, (manyMessages n).foldlM CommandGeneration.handle CommandGeneration.init =
      .ok g := ⟨_, foldlM_declOutput _ _⟩
  have hcollected := collected_of_foldlM hg
  have hlen := hcollected.length_allIds.trans (length_messages_manyMessages n)
  have hlast := hcollected.numbered.length
  refine ⟨{ g with msgToEncid := (allIds g).1 }, ?_, hlen⟩
  rw [generate, hg]
  exact if_neg (show ¬(allIds g).2 ≥ 2 ^ 14 by omega)

/-- A firmware with 0x3fe1 messages is accepted, and two of them get the same id. -/
theorem generate_ids_manyMessages :
    ∃ g, generate (manyMessages 0x3fdf) = .ok g ∧ g.msgToEncid.length = 0x3fe1 ∧
      ¬(g.msgToMsgid.map Prod.snd).Nodup := by
  obtain ⟨g, hg, hlen⟩ := generate_manyMessages (n := 0x3fdf) (by decide)
  obtain ⟨hvalues, hle, -⟩ := numbered_of_generate hg
  refine ⟨g, hg, hlen, ?_⟩
  rw [msgToMsgid_eq hvalues hle, nodup_signedId_iff, hlen]
  decide

end Many

end KlipperMcu.BuildCommands
