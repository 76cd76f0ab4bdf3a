import KlipperMcu.Lib.Run
import Mathlib.Data.List.GetD
import Mathlib.Data.List.Pairwise
import Mathlib.Tactic.SplitIfs

/-!
# Object ids

basecmd.c keeps the configured objects in a table. Their data comes from an allocator that only
grows and is started again by `config_reset`. `oid_alloc` writes the type of an object before it
allocates its data, and a failed allocation leaves it by a long jump to the shutdown handlers, which
walk the table.

Addresses are numbers. The types of objects, in the source the addresses of their configuration
commands, are left open.
-/

namespace KlipperMcu.Oids

open Lib

/-- The memory between `dynmem_start` and `dynmem_end`. -/
structure Layout where
  start : Nat
  finish : Nat
  pos : 0 < start

structure Oid (τ : Type) where
  type : Option τ := none
  data : Option Nat := none
deriving DecidableEq, Repr

/-- What a chunk of memory was allocated for. -/
inductive Owner where
  | table
  | object (oid : Nat)
  | bus
  | moves
deriving DecidableEq, Repr

structure Chunk where
  owner : Owner
  addr : Nat
  size : Nat
deriving DecidableEq, Repr

/-- The variables of basecmd.c and the memory. The chunks since the last reset, latest first, and the
oids whose allocation failed since then are recorded. -/
structure State (τ : Type) where
  allocEnd : Nat
  oids : Option (List (Oid τ)) := none
  oidCount : UInt8 := 0
  moveCount : Nat := 0
  moveItemSize : Nat := 0
  mem : Nat → UInt8 := fun _ => 0
  isShutdown : Bool := false
  chunks : List Chunk := []
  failed : List Nat := []

variable {τ : Type}

/-- `ALIGN(x, 4)`. -/
def align (x : Nat) : Nat := (x + 3) / 4 * 4

/-- The state after `alloc_init`. -/
def boot (L : Layout) : State τ := { allocEnd := align L.start }

def State.isFinalized (s : State τ) : Bool := s.moveCount != 0

/-- The entries of the table. -/
def State.table (s : State τ) : List (Oid τ) := s.oids.getD []

def State.entry (s : State τ) (oid : Nat) : Oid τ := s.table.getD oid {}

def State.modifyOid (s : State τ) (oid : Nat) (f : Oid τ → Oid τ) : State τ :=
  { s with oids := s.oids.map fun t => t.modify oid f }

/-- A call that may leave by a long jump, with the state at that point. -/
abbrev Result (τ α : Type) := Except (State τ) (State τ × α)

/-- The state after a chunk was handed out and cleared. -/
def State.allocated (s : State τ) (owner : Owner) (size : Nat) : State τ :=
  { s with
    allocEnd := s.allocEnd + align size
    mem := fun a => if s.allocEnd ≤ a ∧ a < s.allocEnd + size then 0 else s.mem a
    chunks := ⟨owner, s.allocEnd, size⟩ :: s.chunks }

def allocChunk (L : Layout) (s : State τ) (owner : Owner) (size : Nat) : Result τ Nat :=
  if L.finish < s.allocEnd + size then .error s else .ok (s.allocated owner size, s.allocEnd)

/-- The loop of `alloc_chunks`: how many chunks fit, and where they end. -/
def fitChunks (finish size : Nat) : Nat → Nat → Nat × Nat
  | 0, p => (0, p)
  | count + 1, p =>
    if p + size ≤ finish then
      let r := fitChunks finish size count (p + size)
      (r.1 + 1, r.2)
    else (0, p)

def allocChunks (L : Layout) (s : State τ) (size count : Nat) : Result τ Nat :=
  let r := fitChunks L.finish size count s.allocEnd
  if r.1 = 0 then .error s
  else (allocChunk L s .moves (r.2 - s.allocEnd)).map fun t => (t.1, r.1)

def moveQueueSetup (s : State τ) (size : Nat) : Except (State τ) (State τ) :=
  if 255 < size ∨ s.isFinalized then .error s
  else .ok { s with moveItemSize := max s.moveItemSize size }

/-- `move_finalize`, with a node of the free list taking four bytes. -/
def moveFinalize (L : Layout) (s : State τ) : Except (State τ) (State τ) :=
  if s.isFinalized then .error s
  else
    (moveQueueSetup s 4).bind fun s =>
      (allocChunks L s s.moveItemSize 1024).map fun r => { r.1 with moveCount := r.2 }

def oidLookup [DecidableEq τ] (s : State τ) (oid : UInt8) (type : τ) : Except (State τ) (Option Nat) :=
  if s.oidCount ≤ oid ∨ some type ≠ (s.entry oid.toNat).type then .error s
  else .ok (s.entry oid.toNat).data

def oidAlloc (L : Layout) (s : State τ) (oid : UInt8) (type : τ) (size : Nat) : Result τ Nat :=
  if s.oidCount ≤ oid ∨ (s.entry oid.toNat).type.isSome ∨ s.isFinalized then .error s
  else
    let s := s.modifyOid oid.toNat fun o => { o with type := some type }
    match allocChunk L s (.object oid.toNat) size with
    | .error s => .error { s with failed := oid.toNat :: s.failed }
    | .ok (s, data) => .ok (s.modifyOid oid.toNat fun o => { o with data := some data }, data)

/-- The loop of `oid_next`: the oid that was found, and its data. -/
def oidNext [DecidableEq τ] (s : State τ) (type : τ) : Nat → UInt8 → Option (UInt8 × Option Nat)
  | 0, _ => none
  | fuel + 1, oid =>
    let oid := oid + 1
    if s.oidCount ≤ oid then none
    else if (s.entry oid.toNat).type = some type then some (oid, (s.entry oid.toNat).data)
    else oidNext s type fuel oid

/-- The oids that a `foreach_oid` loop visits after `pos`. It ends when `oid_next` returns NULL. -/
def foreachFrom [DecidableEq τ] (s : State τ) (type : τ) : Nat → UInt8 → List Nat
  | 0, _ => []
  | fuel + 1, pos =>
    match oidNext s type 256 pos with
    | some (oid, some _) => oid.toNat :: foreachFrom s type fuel oid
    | _ => []

def foreachOid [DecidableEq τ] (s : State τ) (type : τ) : List Nat := foreachFrom s type 256 (-1)

def commandAllocateOids (L : Layout) (s : State τ) (count : UInt8) : Except (State τ) (State τ) :=
  if s.oids.isSome then .error s
  else
    (allocChunk L s .table (8 * count.toNat)).map fun r =>
      { r.1 with oids := some (List.replicate count.toNat {}), oidCount := count }

/-- A configuration command: the object, and the size of its moves if it has a queue of them. -/
def commandConfig (L : Layout) (s : State τ) (oid : UInt8) (type : τ) (size : UInt16)
    (moveSize : Option Nat) : Except (State τ) (State τ) :=
  (oidAlloc L s oid type size.toNat).bind fun r =>
    match moveSize with
    | some moveSize => moveQueueSetup r.1 moveSize
    | none => .ok r.1

/-- `i2c_set_software_bus` and `spi_set_software_bus`. -/
def commandSetSoftwareBus [DecidableEq τ] (L : Layout) (s : State τ) (oid : UInt8) (type : τ) (size : Nat) :
    Except (State τ) (State τ) :=
  (oidLookup s oid type).bind fun _ => (allocChunk L s .bus size).map Prod.fst

def configReset (L : Layout) (s : State τ) : State τ := { boot L with mem := s.mem }

inductive Action (τ : Type) where
  | allocateOids (count : UInt8)
  | config (oid : UInt8) (type : τ) (size : UInt16) (moveSize : Option Nat)
  | setSoftwareBus (oid : UInt8) (type : τ) (size : Nat)
  | lookup (oid : UInt8) (type : τ)
  | finalizeConfig
  | store (addr : Nat) (byte : UInt8)
  | shutdown
  | clearShutdown
  | configReset
deriving DecidableEq, Repr

/-- The long jump of a command ends in the shutdown handlers. -/
def leave : Except (State τ) (State τ) → State τ
  | .ok s => s
  | .error s => { s with isShutdown := true }

/-- A command that is refused when shut down. -/
def State.command (s : State τ) (r : Except (State τ) (State τ)) : Option (State τ) :=
  if s.isShutdown then none else some (leave r)

def step [DecidableEq τ] (L : Layout) (s : State τ) : Action τ → Option (State τ)
  | .allocateOids count => s.command (commandAllocateOids L s count)
  | .config oid type size moveSize => s.command (commandConfig L s oid type size moveSize)
  | .setSoftwareBus oid type size => s.command (commandSetSoftwareBus L s oid type size)
  | .lookup oid type => s.command ((oidLookup s oid type).map fun _ => s)
  | .finalizeConfig => s.command (moveFinalize L s)
  | .store addr byte =>
    if s.chunks.any (fun c => c.addr ≤ addr ∧ addr < c.addr + c.size) then
      some { s with mem := Function.update s.mem addr byte }
    else none
  | .shutdown => some { s with isShutdown := true }
  | .clearShutdown => some { s with isShutdown := !s.isShutdown }
  | .configReset =>
    if s.isShutdown then some (configReset L s) else some { s with isShutdown := true }

/-! ### The invariant -/

def Chunk.Apart (c d : Chunk) : Prop := c.addr + c.size ≤ d.addr ∨ d.addr + d.size ≤ c.addr

/-- Chunks do not overlap, and an object whose type is set has a chunk of its own, unless its
allocation failed. -/
structure Inv (s : State τ) : Prop where
  pos : 0 < s.allocEnd
  bounds : ∀ c ∈ s.chunks, 0 < c.addr ∧ c.addr + c.size ≤ s.allocEnd
  apart : s.chunks.Pairwise Chunk.Apart
  length : s.table.length = s.oidCount.toNat
  owned : ∀ c ∈ s.chunks, ∀ oid, c.owner = .object oid → (s.entry oid).type.isSome
  data : ∀ oid, (s.entry oid).type.isSome → oid ∉ s.failed →
    ∃ c ∈ s.chunks, c.owner = .object oid ∧ (s.entry oid).data = some c.addr

variable {L : Layout} {s s' : State τ}

lemma le_align (x : Nat) : x ≤ align x := by
  unfold align
  omega

lemma inv_boot (L : Layout) (mem : Nat → UInt8) : Inv { (boot L : State τ) with mem := mem } where
  pos := Nat.lt_of_lt_of_le L.pos (le_align _)
  bounds _ hc := absurd hc List.not_mem_nil
  apart := List.Pairwise.nil
  length := rfl
  owned _ hc := absurd hc List.not_mem_nil
  data _ htype := absurd htype Bool.false_ne_true

lemma Inv.apart_allocated (h : Inv s) (owner : Owner) (size : Nat) :
    (s.allocated owner size).chunks.Pairwise Chunk.Apart ∧
      ∀ c ∈ (s.allocated owner size).chunks,
        0 < c.addr ∧ c.addr + c.size ≤ (s.allocated owner size).allocEnd := by
  have hle := le_align size
  refine ⟨List.pairwise_cons.mpr ⟨fun c hc => Or.inr (h.bounds c hc).2, h.apart⟩, fun c hc => ?_⟩
  rcases List.mem_cons.mp hc with rfl | hc
  · exact ⟨h.pos, Nat.add_le_add_left hle _⟩
  · exact ⟨(h.bounds c hc).1, Nat.le_trans (h.bounds c hc).2 (Nat.le_add_right _ _)⟩

lemma Inv.allocated (h : Inv s) {owner : Owner} (howner : ∀ oid, owner ≠ .object oid) (size : Nat) :
    Inv (s.allocated owner size) where
  pos := Nat.lt_of_lt_of_le h.pos (Nat.le_add_right _ _)
  bounds := (h.apart_allocated owner size).2
  apart := (h.apart_allocated owner size).1
  length := h.length
  owned c hc oid hoid := by
    rcases List.mem_cons.mp hc with rfl | hc
    · exact absurd hoid (howner oid)
    · exact h.owned c hc oid hoid
  data oid htype hfailed := by
    obtain ⟨c, hc, hrest⟩ := h.data oid htype hfailed
    exact ⟨c, List.mem_cons_of_mem _ hc, hrest⟩

lemma entry_modifyOid (s : State τ) {oid : Nat} (f : Oid τ → Oid τ) (hlt : oid < s.table.length)
    (j : Nat) : (s.modifyOid oid f).entry j = if oid = j then f (s.entry j) else s.entry j := by
  unfold State.modifyOid State.entry State.table at *
  cases hoids : s.oids with
  | none =>
    rw [hoids] at hlt
    exact absurd hlt (Nat.not_lt_zero _)
  | some t =>
    rw [hoids] at hlt
    replace hlt : oid < t.length := hlt
    simp only [Option.map_some, Option.getD_some, List.getD_eq_getElem?_getD, List.getElem?_modify]
    by_cases heq : oid = j
    · subst heq
      rw [List.getElem?_eq_getElem hlt]
      simp
    · simp [heq]

lemma length_modifyOid (s : State τ) (oid : Nat) (f : Oid τ → Oid τ) :
    (s.modifyOid oid f).table.length = s.table.length := by
  unfold State.modifyOid State.table
  cases s.oids with
  | none => rfl
  | some t => exact List.length_modify ..

/-- The state after `oid_alloc` has set the type of a free oid. -/
def State.typed (s : State τ) (oid : Nat) (type : τ) : State τ :=
  s.modifyOid oid fun o => { o with type := some type }

/-- The state after it has set the data too. -/
def State.assigned (s : State τ) (oid : Nat) (type : τ) (size : Nat) : State τ :=
  ((s.typed oid type).allocated (.object oid) size).modifyOid oid fun o =>
    { o with data := some s.allocEnd }

section

variable {oid : Nat} (type : τ)

lemma entry_typed (hlt : oid < s.table.length) (j : Nat) :
    (s.typed oid type).entry j =
      if oid = j then { s.entry j with type := some type } else s.entry j :=
  entry_modifyOid s _ hlt j

lemma entry_assigned (hlt : oid < s.table.length) (size j : Nat) :
    (s.assigned oid type size).entry j =
      if oid = j then ⟨some type, some s.allocEnd⟩ else s.entry j := by
  have hlt' : oid < ((s.typed oid type).allocated (.object oid) size).table.length := by
    change oid < (s.typed oid type).table.length
    rwa [State.typed, length_modifyOid]
  rw [State.assigned, entry_modifyOid _ _ hlt']
  change (if oid = j then { (s.typed oid type).entry j with data := some s.allocEnd } else
    (s.typed oid type).entry j) = _
  rw [entry_typed type hlt]
  split_ifs <;> rfl

lemma Inv.typed (h : Inv s) (hlt : oid < s.table.length) :
    Inv { s.typed oid type with failed := oid :: s.failed } where
  pos := h.pos
  bounds := h.bounds
  apart := h.apart
  length := (length_modifyOid s oid _).trans h.length
  owned c hc j hj := by
    have hold := h.owned c hc j hj
    change ((s.typed oid type).entry j).type.isSome
    rw [entry_typed type hlt]
    split_ifs
    · rfl
    · exact hold
  data j htype hfailed := by
    rw [List.mem_cons, not_or] at hfailed
    obtain ⟨hne, hfailed⟩ := hfailed
    change ((s.typed oid type).entry j).type.isSome at htype
    change ∃ c ∈ s.chunks, c.owner = .object j ∧ ((s.typed oid type).entry j).data = some c.addr
    rw [entry_typed type hlt, if_neg (Ne.symm hne)] at htype ⊢
    exact h.data j htype hfailed

lemma Inv.assigned (h : Inv s) (hlt : oid < s.table.length) (size : Nat) :
    Inv (s.assigned oid type size) where
  pos := Nat.lt_of_lt_of_le h.pos (Nat.le_add_right _ _)
  bounds := (h.apart_allocated (.object oid) size).2
  apart := (h.apart_allocated (.object oid) size).1
  length := by
    rw [State.assigned, length_modifyOid]
    exact (length_modifyOid s oid _).trans h.length
  owned c hc j hj := by
    rw [entry_assigned type hlt]
    split_ifs with heq
    · rfl
    · rcases List.mem_cons.mp hc with rfl | hc
      · cases hj
        exact absurd rfl heq
      · exact h.owned c hc j hj
  data j htype hfailed := by
    rw [entry_assigned type hlt] at htype ⊢
    split_ifs at htype ⊢ with heq
    · exact ⟨⟨.object oid, s.allocEnd, size⟩, List.mem_cons_self, heq ▸ rfl, rfl⟩
    · obtain ⟨c, hc, hrest⟩ := h.data j htype hfailed
      exact ⟨c, List.mem_cons_of_mem _ hc, hrest⟩

end

lemma oidAlloc_cases (L : Layout) (s : State τ) (oid : UInt8) (type : τ) (size : Nat) :
    oidAlloc L s oid type size = .error s ∨
    ((oid.toNat < s.oidCount.toNat ∧ (s.entry oid.toNat).type = none) ∧
      (oidAlloc L s oid type size = .error
          { s.typed oid.toNat type with failed := oid.toNat :: s.failed } ∨
        oidAlloc L s oid type size = .ok (s.assigned oid.toNat type size, s.allocEnd))) := by
  unfold oidAlloc
  split
  · exact Or.inl rfl
  rename_i hfree
  rw [not_or, not_or, UInt8.not_le, UInt8.lt_iff_toNat_lt, Option.not_isSome_iff_eq_none] at hfree
  refine Or.inr ⟨⟨hfree.1, hfree.2.1⟩, ?_⟩
  dsimp only
  rw [allocChunk]
  split_ifs
  · exact Or.inl rfl
  · exact Or.inr rfl

lemma Inv.congr (h : Inv s) (hend : s'.allocEnd = s.allocEnd) (hoids : s'.oids = s.oids)
    (hcount : s'.oidCount = s.oidCount) (hchunks : s'.chunks = s.chunks)
    (hfailed : s'.failed = s.failed) : Inv s' := by
  have htable : s'.table = s.table := congrArg (Option.getD · []) hoids
  have hentry (oid : Nat) : s'.entry oid = s.entry oid := by rw [State.entry, htable, State.entry]
  constructor
  · rw [hend]
    exact h.pos
  · rw [hchunks, hend]
    exact h.bounds
  · rw [hchunks]
    exact h.apart
  · rw [htable, hcount]
    exact h.length
  · intro c hc oid hoid
    rw [hentry]
    exact h.owned c (hchunks ▸ hc) oid hoid
  · intro oid htype hnot
    rw [hentry, hchunks] at *
    exact h.data oid htype (hfailed ▸ hnot)

lemma Inv.shutdown (h : Inv s) : Inv { s with isShutdown := true } := h.congr rfl rfl rfl rfl rfl

lemma Inv.moveQueueSetup (h : Inv s) (size : Nat) : Inv (leave (moveQueueSetup s size)) := by
  unfold Oids.moveQueueSetup
  split_ifs
  · exact h.shutdown
  · exact h.congr rfl rfl rfl rfl rfl

lemma Inv.commandConfig (h : Inv s) (oid : UInt8) (type : τ) (size : UInt16)
    (moveSize : Option Nat) : Inv (leave (commandConfig L s oid type size moveSize)) := by
  unfold Oids.commandConfig
  rcases oidAlloc_cases L s oid type size.toNat with heq | ⟨⟨hlt, -⟩, heq | heq⟩
  · rw [heq]
    exact h.shutdown
  · rw [heq]
    exact (h.typed type (h.length ▸ hlt)).shutdown
  · rw [heq]
    have hassigned := h.assigned type (h.length ▸ hlt) size.toNat
    cases moveSize with
    | none => exact hassigned
    | some moveSize => exact hassigned.moveQueueSetup moveSize

lemma Inv.allocChunk (h : Inv s) {owner : Owner} (howner : ∀ oid, owner ≠ .object oid) (size : Nat) :
    Inv (leave ((allocChunk L s owner size).map Prod.fst)) := by
  unfold Oids.allocChunk
  split_ifs
  · exact h.shutdown
  · exact h.allocated howner size

lemma Inv.commandAllocateOids (h : Inv s) (count : UInt8) :
    Inv (leave (commandAllocateOids L s count)) := by
  unfold Oids.commandAllocateOids
  split_ifs with hsome
  · exact h.shutdown
  have hnone : s.table = [] := by
    rw [Bool.not_eq_true, Option.isSome_eq_false_iff, Option.isNone_iff_eq_none] at hsome
    rw [State.table, hsome]
    rfl
  have hempty (j : Nat) : s.entry j = {} := by
    rw [State.entry, hnone]
    rfl
  unfold Oids.allocChunk
  split_ifs
  · exact h.shutdown
  have hall : Inv (s.allocated .table (8 * count.toNat)) :=
    h.allocated (fun oid ho => by cases ho) _
  have hentry (j : Nat) : (List.replicate count.toNat ({} : Oid τ)).getD j {} = {} := by
    rw [List.getD_eq_getElem?_getD, List.getElem?_replicate]
    split_ifs <;> rfl
  exact {
    pos := hall.pos
    bounds := hall.bounds
    apart := hall.apart
    length := List.length_replicate
    owned := fun c hc oid hoid => by
      have htype := hall.owned c hc oid hoid
      change (s.entry oid).type.isSome at htype
      rw [hempty] at htype
      cases htype
    data := fun oid htype => by
      change ((List.replicate count.toNat ({} : Oid τ)).getD oid {}).type.isSome at htype
      rw [hentry] at htype
      cases htype }

lemma Inv.moveFinalize (h : Inv s) : Inv (leave (moveFinalize L s)) := by
  unfold Oids.moveFinalize
  split_ifs
  · exact h.shutdown
  unfold Oids.moveQueueSetup
  split_ifs
  · exact h.shutdown
  have hsized : Inv { s with moveItemSize := max s.moveItemSize 4 } :=
    h.congr rfl rfl rfl rfl rfl
  dsimp only [Except.bind]
  unfold allocChunks
  dsimp only
  split_ifs
  · exact hsized.shutdown
  unfold Oids.allocChunk
  split_ifs
  · exact hsized.shutdown
  · exact (hsized.allocated (fun oid ho => by cases ho) _).congr rfl rfl rfl rfl rfl

lemma Inv.command {r : Except (State τ) (State τ)} (hr : Inv (leave r))
    (hs : s.command r = some s') : Inv s' := by
  obtain ⟨-, hs⟩ := Option.ite_none_left_eq_some.mp hs
  obtain rfl := Option.some.inj hs
  exact hr

variable [DecidableEq τ]

lemma Inv.commandSetSoftwareBus (h : Inv s) (oid : UInt8) (type : τ) (size : Nat) :
    Inv (leave (commandSetSoftwareBus L s oid type size)) := by
  unfold Oids.commandSetSoftwareBus oidLookup
  split_ifs
  · exact h.shutdown
  · exact h.allocChunk (fun oid ho => by cases ho) size

lemma Inv.step {a : Action τ} (h : Inv s) (hs : step L s a = some s') : Inv s' := by
  cases a with
  | allocateOids count => exact Inv.command (h.commandAllocateOids count) hs
  | config oid type size moveSize => exact Inv.command (h.commandConfig oid type size moveSize) hs
  | setSoftwareBus oid type size => exact Inv.command (h.commandSetSoftwareBus oid type size) hs
  | lookup oid type =>
    apply Inv.command _ hs
    unfold oidLookup
    split_ifs
    · exact h.shutdown
    · exact h
  | finalizeConfig => exact Inv.command h.moveFinalize hs
  | store addr byte =>
    obtain ⟨-, hs⟩ := Option.ite_none_right_eq_some.mp hs
    obtain rfl := Option.some.inj hs
    exact h.congr rfl rfl rfl rfl rfl
  | shutdown =>
    obtain rfl := Option.some.inj hs
    exact h.shutdown
  | clearShutdown =>
    obtain rfl := Option.some.inj hs
    exact h.congr rfl rfl rfl rfl rfl
  | configReset =>
    rw [Oids.step] at hs
    split_ifs at hs
    · obtain rfl := Option.some.inj hs
      exact inv_boot L s.mem
    · obtain rfl := Option.some.inj hs
      exact h.shutdown

/-! ### Walking the table -/

lemma oidNext_spec (type : τ) {fuel k n : Nat} {pos : UInt8} (hpos : (pos + 1).toNat = k)
    (hn : k + n = s.oidCount.toNat) (hfuel : n < fuel) :
    (oidNext s type fuel pos = none ∧
      (List.range' k n).filter (fun i => (s.entry i).type = some type) = []) ∨
    ∃ oid, ∃ m < n, oidNext s type fuel pos = some (oid, (s.entry oid.toNat).data) ∧
      (s.entry oid.toNat).type = some type ∧ (oid + 1).toNat + m = s.oidCount.toNat ∧
      (List.range' k n).filter (fun i => (s.entry i).type = some type) =
        oid.toNat :: (List.range' (oid + 1).toNat m).filter
          (fun i => (s.entry i).type = some type) := by
  induction fuel generalizing k n pos with
  | zero => omega
  | succ fuel ih =>
    rw [oidNext]
    cases n with
    | zero =>
      have hend : s.oidCount ≤ pos + 1 := by
        rw [UInt8.le_iff_toNat_le]
        omega
      rw [if_pos hend]
      exact Or.inl ⟨rfl, rfl⟩
    | succ n =>
      have hlt : ¬s.oidCount ≤ pos + 1 := by
        rw [UInt8.le_iff_toNat_le]
        omega
      have hsucc : (pos + 1 + 1).toNat = k + 1 := by
        have hcount := s.oidCount.toNat_lt
        have hone : (1 : UInt8).toNat = 1 := rfl
        rw [UInt8.toNat_add]
        omega
      rw [if_neg hlt, List.range'_succ, hpos]
      by_cases htype : (s.entry k).type = some type
      · rw [if_pos htype]
        refine Or.inr ⟨pos + 1, n, Nat.lt_succ_self n, ?_, ?_, ?_, ?_⟩
        · rw [hpos]
        · rw [hpos]
          exact htype
        · rw [hsucc]
          omega
        · rw [hpos, hsucc]
          exact List.filter_cons_of_pos (by simpa using htype)
      · rw [if_neg htype, List.filter_cons_of_neg (by simpa using htype)]
        rcases ih (n := n) hsucc (by omega) (by omega) with hnone | ⟨oid, m, hm, hrest⟩
        · exact Or.inl hnone
        · exact Or.inr ⟨oid, m, Nat.lt_succ_of_lt hm, hrest⟩

lemma foreachFrom_eq (type : τ) (hdata : ∀ i, (s.entry i).type = some type → (s.entry i).data ≠ none)
    {fuel k n : Nat} {pos : UInt8} (hpos : (pos + 1).toNat = k) (hn : k + n = s.oidCount.toNat)
    (hfuel : n < fuel) :
    foreachFrom s type fuel pos =
      (List.range' k n).filter (fun i => (s.entry i).type = some type) := by
  induction fuel generalizing k n pos with
  | zero => omega
  | succ fuel ih =>
    have hcount := s.oidCount.toNat_lt
    rw [foreachFrom]
    rcases oidNext_spec type hpos hn (by omega : n < 256) with
      ⟨hnone, hfilter⟩ | ⟨oid, m, hm, hsome, htype, hnext, hfilter⟩
    · rw [hnone, hfilter]
    · obtain ⟨data, hd⟩ := Option.ne_none_iff_exists'.mp (hdata _ htype)
      rw [hsome, hd, hfilter]
      exact congrArg (oid.toNat :: ·) (ih rfl hnext (by omega))

lemma mem_of_config {oid : UInt8} {type : τ} {size : UInt16} {moveSize : Option Nat}
    (h : Inv s) (hs : step L s (.config oid type size moveSize) = some s')
    (hfree : (s.entry oid.toNat).type = none) (htype : (s'.entry oid.toNat).type = some type)
    (hfailed : oid.toNat ∉ s'.failed) :
    ∃ data, (s'.entry oid.toNat).data = some data ∧ ∀ k < size.toNat, s'.mem (data + k) = 0 := by
  obtain ⟨-, hs⟩ := Option.ite_none_left_eq_some.mp hs
  obtain rfl := Option.some.inj hs
  unfold commandConfig at htype hfailed ⊢
  rcases oidAlloc_cases L s oid type size.toNat with heq | ⟨⟨hlt, -⟩, heq | heq⟩
  · rw [heq] at htype
    change (s.entry oid.toNat).type = some type at htype
    rw [hfree] at htype
    cases htype
  · rw [heq] at hfailed
    exact absurd List.mem_cons_self hfailed
  · rw [heq]
    have hentry := entry_assigned type (h.length ▸ hlt) size.toNat oid.toNat
    rw [if_pos rfl] at hentry
    have hmem (k : Nat) (hk : k < size.toNat) :
        (s.assigned oid.toNat type size.toNat).mem (s.allocEnd + k) = 0 :=
      if_pos ⟨Nat.le_add_right _ _, Nat.add_lt_add_left hk _⟩
    refine ⟨s.allocEnd, ?_, ?_⟩
    · cases moveSize with
      | none => exact congrArg Oid.data hentry
      | some moveSize =>
        dsimp only [Except.bind]
        unfold Oids.moveQueueSetup
        split_ifs <;> exact congrArg Oid.data hentry
    · cases moveSize with
      | none => exact hmem
      | some moveSize =>
        dsimp only [Except.bind]
        unfold Oids.moveQueueSetup
        split_ifs <;> exact hmem

instance symmApart : Std.Symm Chunk.Apart := ⟨fun _ _ h => h.symm⟩

/-- In every reachable state an object whose type is set has data of its own, unless its allocation
failed. A lookup of such an object is not NULL, and a `foreach_oid` loop visits all objects of a type
of which no allocation failed. -/
theorem oids_of_run {actions : List (Action τ)}
    (h : Run (step L) (fun _ _ => True) (boot L) actions s) :
    (∀ oid, (s.entry oid).type.isSome → oid ∉ s.failed → ∃ c ∈ s.chunks, c.owner = .object oid ∧
      (s.entry oid).data = some c.addr ∧ c.addr ≠ 0) ∧
    (∀ c ∈ s.chunks, ∀ d ∈ s.chunks, c ≠ d → c.Apart d) ∧
    (∀ oid type size moveSize s', step L s (.config oid type size moveSize) = some s' →
      (s.entry oid.toNat).type = none → (s'.entry oid.toNat).type = some type →
      oid.toNat ∉ s'.failed → ∃ data, (s'.entry oid.toNat).data = some data ∧
        ∀ k < size.toNat, s'.mem (data + k) = 0) ∧
    (∀ oid type data, oidLookup s oid type = .ok data → oid.toNat ∉ s.failed → data ≠ none) ∧
    (∀ type, (∀ oid ∈ s.failed, (s.entry oid).type ≠ some type) →
      foreachOid s type =
        (List.range s.oidCount.toNat).filter fun i => (s.entry i).type = some type) := by
  have hinv : Inv s := by
    apply h.invariant
    · exact inv_boot L _
    · intro s a s' hi _ hs
      exact hi.step hs
  refine ⟨fun oid htype hfailed => ?_, fun c hc d hd hne => ?_, ?_, ?_, ?_⟩
  · obtain ⟨c, hc, howner, hdata⟩ := hinv.data oid htype hfailed
    exact ⟨c, hc, howner, hdata, Nat.ne_of_gt (hinv.bounds c hc).1⟩
  · exact hinv.apart.forall hc hd hne
  · intro oid type size moveSize s' hs hfree htype hfailed
    exact mem_of_config hinv hs hfree htype hfailed
  · intro oid type data hlookup hfailed
    unfold oidLookup at hlookup
    split_ifs at hlookup with hbad
    rw [not_or, ne_eq, not_not] at hbad
    obtain ⟨c, -, -, hdata⟩ := hinv.data oid.toNat (by rw [← hbad.2]; rfl) hfailed
    cases hlookup
    rw [hdata]
    exact Option.some_ne_none _
  · intro type htypes
    rw [List.range_eq_range']
    apply foreachFrom_eq
    · intro i htype
      have hfailed : i ∉ s.failed := fun hmem => htypes i hmem htype
      obtain ⟨c, -, -, hdata⟩ := hinv.data i (by rw [htype]; rfl) hfailed
      rw [hdata]
      exact Option.some_ne_none _
    · rfl
    · exact Nat.zero_add _
    · exact Nat.lt_of_lt_of_le s.oidCount.toNat_lt (by decide)

/-- 256 bytes of memory. -/
def smallLayout : Layout := ⟨0x20001000, 0x20001100, by decide⟩

theorem oids_of_run_config : ∃ actions, ∃ s : State Nat,
    Run (step smallLayout) (fun _ _ => True) (boot smallLayout) actions s ∧
    s.failed = [] ∧ s.oidCount = 3 ∧ (s.entry 1).type = some 7 ∧ (s.entry 2).type = some 7 ∧
    foreachOid s 7 = (List.range s.oidCount.toNat).filter fun i => (s.entry i).type = some 7 := by
  obtain ⟨s, hrun, hp⟩ : ∃ s : State Nat,
      Run (step smallLayout) (fun _ _ => True) (boot smallLayout)
        [.allocateOids 3, .config 2 7 20 (some 12), .config 1 7 40 none, .config 0 8 1 none,
          .finalizeConfig] s ∧
      decide (s.failed = [] ∧ s.oidCount = 3 ∧ (s.entry 1).type = some 7 ∧
        (s.entry 2).type = some 7) = true :=
    Run.exists_of_exec _ _ (by decide +kernel)
  obtain ⟨hfailed, hcount, hone, htwo⟩ := of_decide_eq_true hp
  refine ⟨_, s, hrun, hfailed, hcount, hone, htwo, (oids_of_run hrun).2.2.2.2 7 ?_⟩
  rw [hfailed]
  exact fun _ hmem => absurd hmem List.not_mem_nil

/-- The allocation of oid 0 fails. The shutdown handlers of its type then visit no object at all,
though oid 1 is configured, and a lookup of oid 0 gives NULL once the shutdown is cleared. -/
theorem foreachOid_after_failure : ∃ actions, ∃ s s' : State Nat,
    Run (step smallLayout) (fun _ _ => True) (boot smallLayout) actions s ∧ s.isShutdown = true ∧
    (s.entry 1).type = some 7 ∧ (s.entry 1).data.isSome ∧ (s.entry 0).type = some 7 ∧
    foreachOid s 7 = [] ∧ step smallLayout s .clearShutdown = some s' ∧
    s'.isShutdown = false ∧ oidLookup s' 0 7 = .ok none := by
  obtain ⟨s, hrun, hp⟩ : ∃ s : State Nat,
      Run (step smallLayout) (fun _ _ => True) (boot smallLayout)
        [.allocateOids 2, .config 1 7 20 (some 12), .config 0 7 300 (some 12)] s ∧
      decide (s.isShutdown = true ∧ (s.entry 1).type = some 7 ∧ (s.entry 1).data.isSome ∧
        (s.entry 0).type = some 7 ∧ foreachOid s 7 = [] ∧ s.oidCount = 2 ∧
        (s.entry 0).data = none) = true :=
    Run.exists_of_exec _ _ (by decide +kernel)
  obtain ⟨hdown, hone, hdata, hzero, hforeach, hcount, hnone⟩ := of_decide_eq_true hp
  refine ⟨_, s, _, hrun, hdown, hone, hdata, hzero, hforeach, rfl, ?_, ?_⟩
  · rw [hdown]
    rfl
  · unfold oidLookup
    rw [if_neg]
    · exact congrArg Except.ok hnone
    · rw [not_or]
      refine ⟨?_, ?_⟩
      · rw [hcount]
        decide
      · exact not_not.mpr hzero.symm

end KlipperMcu.Oids
