import KlipperMcu.Host.StepQueue

/-!
# The storage of the step queue

Where the operations of stepcompress.c access the array of the queue, and what is in the array: its
entries between `queue_pos` and `queue_next` are the queue that the compression reads. A step can be
stored behind the end of the array.
-/

namespace KlipperMcu.StepStorage

open StepQueue Compress Lib

/-- The message that is queued after the flush is left out. -/
def stepcompressQueueMsg (rounds : Nat) (s : Stepper) : Option Outcome :=
  stepcompressFlush rounds s uint64Max

inductive Call where
  | op (a : Action)
  | queueMsg
deriving DecidableEq, Repr

def call (rounds : Nat) (rapid : Int → Bool) (s : Stepper) : Call → Option Outcome
  | .op a => operation rounds rapid s a
  | .queueMsg => stepcompressQueueMsg rounds s

/-- The accesses of a run are collected, and a call that fails does not end it. -/
def step (rounds : Nat) (rapid : Int → Bool) (o : Outcome) (c : Call) : Option Outcome :=
  (call rounds rapid o.s c).map fun o' => { o' with accesses := o.accesses ++ o'.accesses }

def LegalCall (o : Outcome) : Call → Prop
  | .op a => Legal o.s a
  | .queueMsg => True

instance decidableLegalCall (o : Outcome) (c : Call) : Decidable (LegalCall o c) :=
  c.casesOn (fun a => inferInstanceAs (Decidable (Legal o.s a))) (isTrue trivial)

/-- A step was stored at the offset `slot`, and the array had `alloc` entries. -/
structure Store where
  slot : Nat
  alloc : Nat
deriving DecidableEq, Repr

def stores (accesses : List Access) : List Store :=
  accesses.filterMap fun
    | .store slot alloc _ => some ⟨slot, alloc⟩
    | _ => none

/-- The array after an access. What lies behind its old end after a `realloc` is `junk`. -/
def access (junk mem : Nat → UInt32) : Access → Nat → UInt32
  | .store slot alloc clock => if slot < alloc then Function.update mem slot clock else mem
  | .memmove pos inUse => fun i => if i < inUse then mem (pos + i) else mem i
  | .realloc alloc => fun i => if i < alloc then mem i else junk i

/-- The array after all the accesses. -/
def contents (junk mem : Nat → UInt32) (accesses : List Access) : Nat → UInt32 :=
  accesses.foldl (access junk) mem

/-- The entries from `queue_pos` on are the steps of the queue. -/
def Holds (mem : Nat → UInt32) (s : Stepper) : Prop :=
  ∀ (i : Nat) clock, s.queue[i]? = some clock → mem (s.queuePos + i) = clock

/-! ### Accesses stay in the array -/

variable {rounds moveClock : Nat} {rapid : Int → Bool} {s t : Stepper} {o : Outcome} {st : Step}
  {mem junk : Nat → UInt32}

/-- An operation from `s` leaves the pointers in order, stores no step at `queue_end` or behind it,
and keeps the queue in the array. -/
structure Safe (s : Stepper) (o : Outcome) : Prop where
  next : o.s.queueNext ≤ o.s.queueEnd
  stores : ∀ w ∈ stores o.accesses, w.slot < w.alloc
  holds : ∀ junk mem, Holds mem s → Holds (contents junk mem o.accesses) o.s

lemma safe_of_accesses_nil (h : o.accesses = []) (hnext : o.s.queueNext ≤ o.s.queueEnd)
    (hholds : ∀ mem, Holds mem s → Holds mem o.s) : Safe s o where
  next := hnext
  stores := by
    rw [h]
    nofun
  holds := by
    rw [h]
    exact fun _ => hholds

/-- Flushing moves `queue_pos` forward, or all pointers back to the start of the array. -/
structure Flushed (s : Stepper) (o : Outcome) : Prop where
  accesses : o.accesses = []
  queueEnd : o.s.queueEnd = s.queueEnd
  next : o.s.queueNext = s.queueNext ∨ o.s.queueNext = 0
  holds : ∀ mem, Holds mem s → Holds mem o.s

lemma Flushed.refl (s : Stepper) (ok : Bool) : Flushed s { s := s, ok := ok } :=
  ⟨rfl, rfl, Or.inl rfl, fun _ => id⟩

lemma flushRound_queueNext {move : StepMove} (h : checkLine s.toStepCompress move = some true) :
    (flushRound s move).queueNext =
      if s.queue.length ≤ move.count.toNat then 0 else s.queueNext := by
  have hcount := (checkLine_count h).2
  unfold Stepper.queueNext
  change (ite _ _ _) + (s.queue.drop move.count.toNat).length = _
  rw [List.length_drop]
  split
  · omega
  · omega

lemma Holds.flushRound (h : Holds mem s) (move : StepMove) : Holds mem (flushRound s move) := by
  intro i clock hi
  change (s.queue.drop move.count.toNat)[i]? = some clock at hi
  rw [List.getElem?_drop] at hi
  have hlt := (List.getElem?_eq_some_iff.mp hi).1
  have hpos : (StepQueue.flushRound s move).queuePos = s.queuePos + move.count.toNat :=
    if_neg (by omega)
  rw [hpos, Nat.add_assoc]
  exact h _ _ hi

lemma Flushed.trans_flushRound {move : StepMove} (h : checkLine s.toStepCompress move = some true)
    (ho : Flushed (flushRound s move) o) : Flushed s o where
  accesses := ho.accesses
  queueEnd := ho.queueEnd
  next := by
    have hnext := flushRound_queueNext h
    rcases ho.next with heq | hzero
    · rw [heq, hnext]
      split
      · exact Or.inr rfl
      · exact Or.inl rfl
    · exact Or.inr hzero
  holds := fun mem hmem => ho.holds mem (hmem.flushRound move)

lemma flushed_flushLoop {fuel : Nat} (h : flushLoop rounds moveClock fuel s = some o) :
    Flushed s o ∧ (o.ok = true → o.s.queue = [] ∨ moveClock ≤ o.s.lastStepClock) := by
  induction fuel generalizing s with
  | zero => cases h
  | succ fuel ih =>
    rw [flushLoop] at h
    split at h
    · rename_i hclock
      cases h
      exact ⟨.refl s true, fun _ => Or.inr hclock⟩
    split at h
    · cases h
    split at h
    · rename_i hcheck
      split at h
      · rename_i hall
        cases h
        exact ⟨.trans_flushRound hcheck (.refl _ true),
          fun _ => Or.inl (List.drop_eq_nil_of_le hall)⟩
      · exact ⟨.trans_flushRound hcheck (ih h).1, (ih h).2⟩
    · cases h
      exact ⟨.refl s false, fun hok => absurd hok Bool.false_ne_true⟩

lemma flushed_queueFlush (h : queueFlush rounds s moveClock = some o) :
    Flushed s o ∧ (o.ok = true → o.s.queue = [] ∨ moveClock ≤ o.s.lastStepClock) := by
  rw [queueFlush] at h
  split at h
  · rename_i hempty
    cases h
    exact ⟨.refl s true, fun _ => Or.inl hempty⟩
  · exact flushed_flushLoop h

lemma Flushed.safe (h : Flushed s o) (hs : s.queueNext ≤ s.queueEnd) : Safe s o := by
  refine safe_of_accesses_nil h.accesses ?_ h.holds
  rw [h.queueEnd]
  rcases h.next with heq | hzero
  · rw [heq]
    exact hs
  · rw [hzero]
    exact Nat.zero_le _

lemma Flushed.lt (h : Flushed s o) (hs : s.queueNext < s.queueEnd) :
    o.s.queueNext < o.s.queueEnd := by
  rw [h.queueEnd]
  rcases h.next with heq | hzero
  · rw [heq]
    exact hs
  · rw [hzero]
    exact Nat.zero_lt_of_lt hs

lemma Safe.append {o' : Outcome} (h : Safe s o) (h' : Safe o.s o') :
    Safe s { o' with accesses := o.accesses ++ o'.accesses } where
  next := h'.next
  stores := by
    intro w hw
    change w ∈ StepStorage.stores (o.accesses ++ o'.accesses) at hw
    rw [StepStorage.stores, List.filterMap_append] at hw
    rcases List.mem_append.mp hw with hw | hw
    · exact h.stores w hw
    · exact h'.stores w hw
  holds := by
    intro junk mem hmem
    change Holds (contents junk mem (o.accesses ++ o'.accesses)) o'.s
    rw [contents, List.foldl_append]
    exact h'.holds junk _ (h.holds junk mem hmem)

lemma Safe.andThen {x : Option Outcome} {f : Stepper → Option Outcome}
    (h : StepQueue.andThen x f = some o) (hx : ∀ o₁, x = some o₁ → Safe s o₁)
    (hf : ∀ o₁ o₂, x = some o₁ → o₁.ok = true → f o₁.s = some o₂ → Safe o₁.s o₂) : Safe s o := by
  obtain ⟨o₁, ho₁, h⟩ := Option.bind_eq_some_iff.mp h
  split at h
  · rename_i hok
    obtain ⟨o₂, ho₂, rfl⟩ := Option.map_eq_some_iff.mp h
    exact (hx o₁ ho₁).append (hf o₁ o₂ ho₁ hok ho₂)
  · cases h
    exact hx o ho₁

lemma Holds.push (h : Holds mem s) (st : Step) :
    Holds (Function.update mem s.queueNext (UInt32.ofNat st.clock)) (push s st) := by
  intro i clock hi
  change (s.queue ++ [_])[i]? = some clock at hi
  change Function.update mem (s.queueOff + s.queue.length) _ (s.queueOff + i) = clock
  rcases Nat.lt_or_ge i s.queue.length with hlt | hge
  · rw [List.getElem?_append_left hlt] at hi
    rw [Function.update_of_ne (by omega)]
    exact h i clock hi
  · rw [List.getElem?_append_right hge, List.getElem?_singleton] at hi
    split at hi
    · rw [show i = s.queue.length by omega, Function.update_self]
      exact Option.some.inj hi
    · cases hi

lemma safe_stored (h : s.queueNext < s.queueEnd) (t : Stepper)
    (hqueue : t.queue = (push s st).queue) (hpos : t.queuePos = s.queuePos)
    (hend : t.queueEnd = s.queueEnd) : Safe s (stored s t st) where
  next := by
    change t.queueOff + t.queue.length ≤ t.queueEnd
    rw [hqueue, hend]
    change t.queuePos + (s.queue ++ [_]).length ≤ s.queueEnd
    rw [hpos, List.length_append, List.length_singleton]
    exact h
  stores := by
    intro w hw
    rw [List.mem_singleton.mp hw]
    exact h
  holds := by
    intro junk mem hmem
    change Holds (if s.queueNext < s.queueEnd then _ else mem) t
    rw [if_pos h]
    intro i clock hi
    rw [hqueue] at hi
    rw [hpos]
    exact hmem.push st i clock hi

lemma lt_grow {inUse fuel alloc : Nat} (hpos : 0 < alloc) (hfuel : inUse < alloc + fuel) :
    inUse < grow inUse fuel alloc := by
  induction fuel generalizing alloc with
  | zero => exact hfuel
  | succ fuel ih =>
    rw [grow]
    split
    · apply ih
      · omega
      · omega
    · omega

lemma makeRoom_lt (h : s.queueNext ≤ s.queueEnd) :
    (makeRoom s).s.queueNext < (makeRoom s).s.queueEnd := by
  unfold Stepper.queueNext Stepper.queueEnd at *
  rw [makeRoom]
  unfold Stepper.queueNext Stepper.queueEnd
  split
  · split
    · change 0 + s.queue.length < s.queueAlloc
      omega
    · change 0 + s.queue.length < grow s.queue.length (s.queue.length + 1) _
      rw [Nat.zero_add]
      apply lt_grow
      · split
        · decide
        · omega
      · omega
  · change s.queueOff + s.queue.length < s.queueAlloc
    omega

/-- `memmove` moves the steps in use with `queue_pos`, and `realloc` keeps an array that is full. -/
lemma safe_makeRoom (h : s.queueNext ≤ s.queueEnd) : Safe s (makeRoom s) := by
  refine ⟨Nat.le_of_lt (makeRoom_lt h), ?_, ?_⟩
  · rw [makeRoom]
    split
    · split <;> nofun
    · nofun
  · intro junk mem hmem
    rw [makeRoom]
    split
    · split
      · intro i clock hi
        change (if 0 + i < s.queue.length then mem (s.queueOff + (0 + i)) else mem (0 + i)) = clock
        have hlt := (List.getElem?_eq_some_iff.mp hi).1
        rw [Nat.zero_add, if_pos hlt]
        exact hmem i clock hi
      · rename_i hzero
        intro i clock hi
        change (if 0 + i < s.queueAlloc then mem (0 + i) else junk (0 + i)) = clock
        have hlt : i < s.queue.length := (List.getElem?_eq_some_iff.mp hi).1
        have hoff : s.queueOff = 0 := by omega
        change s.queueOff + s.queue.length ≤ s.queueAlloc at h
        rw [if_pos (by omega), ← hoff]
        exact hmem i clock hi
    · exact hmem

lemma flushed_flushLong (h : flushLong rounds s = some o) : Flushed s o := by
  rw [flushLong] at h
  split at h
  · exact (flushed_queueFlush h).1
  · cases h
    exact .refl s true

lemma safe_queueAppendExtend (hs : s.queueNext ≤ s.queueEnd)
    (h : queueAppendExtend rounds s = some o) : Safe s o := by
  apply Safe.andThen h
  · intro o₁ ho₁
    exact (flushed_flushLong ho₁).safe hs
  · intro o₁ o₂ ho₁ _ ho₂
    have hnext := ((flushed_flushLong ho₁).safe hs).next
    apply Safe.andThen ho₂
    · intro o₃ ho₃
      cases ho₃
      exact safe_makeRoom hnext
    · intro o₃ o₄ ho₃ _ ho₄
      cases ho₃
      cases ho₄
      exact safe_stored (makeRoom_lt hnext) _ rfl rfl rfl

/-- A queue that is not full takes a step that is not far after the flush. From an empty queue, and
at the end of the clocks, nothing is flushed and the step is as far as before. -/
lemma safe_queueAppendFar (hs : s.queueNext ≤ s.queueEnd) (hfar : s.IsFar s.nextStepClock)
    (hroom : (s.queue = [] ∨ uint64Max ≤ s.lastStepClock) ∨ s.queueNext < s.queueEnd)
    (h : queueAppendFar rounds s = some o) : Safe s o := by
  have hflush : farFlushClock s.nextStepClock ≤ uint64Max := by
    unfold farFlushClock uint64Max
    omega
  unfold queueAppendFar at h
  generalize farFlushClock s.nextStepClock = clock at h hflush
  apply Safe.andThen h
  · intro o₁ ho₁
    have hsafe := (flushed_queueFlush ho₁).1.safe hs
    exact ⟨hsafe.next, hsafe.stores, hsafe.holds⟩
  · intro o₁ o₂ ho₁ _ ho₂
    obtain rfl := Option.some.inj ho₂
    have hflushed := (flushed_queueFlush ho₁).1
    rw [appendFar]
    split
    · exact safe_of_accesses_nil rfl (hflushed.safe hs).next fun _ => id
    · rename_i hnear
      rcases hroom with hsame | hlt
      · obtain rfl : { s := { s with nextStepClock := 0 } } = o₁ := by
          rw [queueFlush] at ho₁
          split at ho₁
          · exact Option.some.inj ho₁
          · rename_i hne
            rw [flushLoop, if_pos (Nat.le_trans hflush (hsame.resolve_left hne))] at ho₁
            exact Option.some.inj ho₁
        exact absurd hfar hnear
      · exact safe_stored (hflushed.lt hlt) _ rfl rfl rfl

lemma safe_setNextStepDir {sdir : Bool} (hs : s.queueNext ≤ s.queueEnd)
    (h : setNextStepDir rounds s sdir = some o) : Safe s o := by
  rw [setNextStepDir] at h
  split at h
  · cases h
    exact safe_of_accesses_nil rfl hs fun _ => id
  · apply Safe.andThen h
    · intro o₁ ho₁
      exact (flushed_queueFlush ho₁).1.safe hs
    · intro o₁ o₂ ho₁ _ ho₂
      cases ho₂
      exact safe_of_accesses_nil rfl ((flushed_queueFlush ho₁).1.safe hs).next fun _ => id

lemma flushed_setNextStepDir {sdir : Bool} (hdir : s.sdir ≠ dirInt sdir)
    (h : setNextStepDir rounds s sdir = some o) (hok : o.ok = true) :
    o.s.queue = [] ∨ uint64Max ≤ o.s.lastStepClock := by
  rw [setNextStepDir, if_neg hdir] at h
  obtain ⟨o₁, ho₁, h⟩ := Option.bind_eq_some_iff.mp h
  split at h
  · rename_i hok₁
    obtain ⟨o₂, ho₂, rfl⟩ := Option.map_eq_some_iff.mp h
    cases ho₂
    exact (flushed_queueFlush ho₁).2 hok₁
  · rename_i hfail
    cases h
    exact absurd hok hfail

/-- A pending step in the direction of the queue does not find it full when it is far. -/
def farRoom (s : Stepper) : Prop :=
  s.sdir = dirInt s.nextStepDir → s.IsFar s.nextStepClock →
    s.queue = [] ∨ s.queueNext < s.queueEnd

instance decidableFarRoom (s : Stepper) : Decidable (farRoom s) := by
  unfold farRoom
  infer_instance

lemma room_of_farRoom (h : farRoom s) (ho : setNextStepDir rounds s s.nextStepDir = some o)
    (hok : o.ok = true) (hfar : o.s.IsFar o.s.nextStepClock) :
    (o.s.queue = [] ∨ uint64Max ≤ o.s.lastStepClock) ∨ o.s.queueNext < o.s.queueEnd := by
  by_cases hdir : s.sdir = dirInt s.nextStepDir
  · rw [setNextStepDir, if_pos hdir] at ho
    cases ho
    rcases h hdir hfar with hempty | hlt
    · exact Or.inl (Or.inl hempty)
    · exact Or.inr hlt
  · exact Or.inl (flushed_setNextStepDir hdir ho hok)

lemma safe_queueAppend (hs : s.queueNext ≤ s.queueEnd) (hroom : farRoom s)
    (h : queueAppend rounds s = some o) : Safe s o := by
  apply Safe.andThen h
  · intro o₁ ho₁
    exact safe_setNextStepDir hs ho₁
  · intro o₁ o₂ ho₁ hok ho₂
    have hs₁ := (safe_setNextStepDir hs ho₁).next
    rw [appendInDir] at ho₂
    split at ho₂
    · rename_i hfar
      exact safe_queueAppendFar hs₁ hfar (room_of_farRoom hroom ho₁ hok hfar) ho₂
    split at ho₂
    · exact safe_queueAppendExtend hs₁ ho₂
    · rename_i hlt
      cases ho₂
      exact safe_stored (Nat.lt_of_not_le hlt) _ rfl rfl rfl

/-- The operation moves the pending step to the queue. -/
def Appends (rapid : Int → Bool) (s : Stepper) : Call → Prop
  | .op (.append st) => s.nextStepClock ≠ 0 ∧
      ¬(st.dir ≠ s.nextStepDir ∧ rapid (toInt64 (st.clock - s.nextStepClock)) = true)
  | .op .commit => s.nextStepClock ≠ 0
  | .op (.flush moveClock) => s.nextStepClock ≠ 0 ∧ s.nextStepClock ≤ moveClock
  | .op (.reset _) => s.nextStepClock ≠ 0 ∧ s.nextStepClock ≤ uint64Max
  | .queueMsg => s.nextStepClock ≠ 0 ∧ s.nextStepClock ≤ uint64Max

instance decidableAppends (rapid : Int → Bool) (s : Stepper) (c : Call) :
    Decidable (Appends rapid s c) :=
  match c with
  | .op (.append _) => instDecidableAnd
  | .op .commit => instDecidableNot
  | .op (.flush _) => instDecidableAnd
  | .op (.reset _) => instDecidableAnd
  | .queueMsg => instDecidableAnd

lemma safe_stepcompressFlush (hs : s.queueNext ≤ s.queueEnd)
    (hroom : s.nextStepClock ≠ 0 ∧ s.nextStepClock ≤ moveClock → farRoom s)
    (h : stepcompressFlush rounds s moveClock = some o) : Safe s o := by
  rw [stepcompressFlush] at h
  split at h
  · rename_i hpending
    apply Safe.andThen h
    · intro o₁ ho₁
      exact safe_queueAppend hs (hroom hpending) ho₁
    · intro o₁ o₂ ho₁ _ ho₂
      exact (flushed_queueFlush ho₂).1.safe (safe_queueAppend hs (hroom hpending) ho₁).next
  · exact (flushed_queueFlush h).1.safe hs

lemma safe_stepcompressAppend (hs : s.queueNext ≤ s.queueEnd)
    (hroom : Appends rapid s (.op (.append st)) → farRoom s)
    (h : stepcompressAppend rounds rapid s st = some o) : Safe s o := by
  rw [stepcompressAppend] at h
  split at h
  · cases h
    exact safe_of_accesses_nil rfl hs fun _ => id
  split at h
  · cases h
    exact safe_of_accesses_nil rfl hs fun _ => id
  · rename_i hne hcancel
    have happend {o₁ : Outcome} (ho₁ : queueAppend rounds s = some o₁) : Safe s o₁ :=
      safe_queueAppend hs (hroom ⟨hne, hcancel⟩) ho₁
    apply Safe.andThen h
    · intro o₁ ho₁
      exact happend ho₁
    · intro o₁ o₂ ho₁ _ ho₂
      cases ho₂
      exact safe_of_accesses_nil rfl (happend ho₁).next fun _ => id

lemma safe_call {c : Call} (hs : s.queueNext ≤ s.queueEnd)
    (hroom : Appends rapid s c → farRoom s) (h : call rounds rapid s c = some o) : Safe s o := by
  match c with
  | .op (.append st) => exact safe_stepcompressAppend hs hroom h
  | .op .commit =>
    change stepcompressCommit rounds s = some o at h
    rw [stepcompressCommit] at h
    split at h
    · rename_i hne
      exact safe_queueAppend hs (hroom hne) h
    · cases h
      exact safe_of_accesses_nil rfl hs fun _ => id
  | .op (.flush moveClock) => exact safe_stepcompressFlush hs hroom h
  | .op (.reset clock) =>
    change stepcompressReset rounds s clock = some o at h
    rw [stepcompressReset] at h
    apply Safe.andThen h
    · intro o₁ ho₁
      exact safe_stepcompressFlush hs hroom ho₁
    · intro o₁ o₂ ho₁ _ ho₂
      cases ho₂
      exact safe_of_accesses_nil rfl (safe_stepcompressFlush hs hroom ho₁).next fun _ => id
  | .queueMsg => exact safe_stepcompressFlush hs hroom h

section Runs

variable {maxError : UInt32} {invertSdir : Bool} {calls : List Call}

lemma safe_of_run
    (h : Run (step rounds rapid) (fun o c => LegalCall o c ∧ (Appends rapid o.s c → farRoom o.s))
      { s := stepcompressAlloc maxError invertSdir } calls o) :
    Safe (stepcompressAlloc maxError invertSdir) o := by
  apply h.invariant
  · exact safe_of_accesses_nil rfl (le_refl 0) fun _ => id
  · intro o₁ c o₂ hsafe hlegal hs
    obtain ⟨o₃, ho₃, rfl⟩ := Option.map_eq_some_iff.mp hs
    exact hsafe.append (safe_call hsafe.next hlegal.2 ho₃)

/-- In every run the pointers are in order and no step is stored at `queue_end` or behind it, if no
far step in the direction of the queue finds it full. -/
theorem stores_in_storage
    (h : Run (step rounds rapid) (fun o c => LegalCall o c ∧ (Appends rapid o.s c → farRoom o.s))
      { s := stepcompressAlloc maxError invertSdir } calls o) :
    o.s.queuePos ≤ o.s.queueNext ∧ o.s.queueNext ≤ o.s.queueEnd ∧
      ∀ w ∈ stores o.accesses, w.slot < w.alloc :=
  ⟨Nat.le_add_right _ _, (safe_of_run h).next, (safe_of_run h).stores⟩

/-- In such a run the array holds the queue: after the stores, the `memmove` and `realloc` calls of
the run its entries from `queue_pos` to `queue_next` are the queued steps in order, whatever was in the
memory before and whatever `realloc` adds. -/
theorem array_of_run
    (h : Run (step rounds rapid) (fun o c => LegalCall o c ∧ (Appends rapid o.s c → farRoom o.s))
      { s := stepcompressAlloc maxError invertSdir } calls o) (junk mem : Nat → UInt32) :
    o.s.queue = (List.range (o.s.queueNext - o.s.queuePos)).map fun i =>
      contents junk mem o.accesses (o.s.queuePos + i) := by
  have hholds := (safe_of_run h).holds junk mem nofun
  have hlen : o.s.queueNext - o.s.queuePos = o.s.queue.length := Nat.add_sub_cancel_left _ _
  apply List.ext_getElem?
  intro i
  rw [hlen, List.getElem?_map]
  rcases Nat.lt_or_ge i o.s.queue.length with hlt | hge
  · rw [List.getElem?_range hlt, Option.map_some, List.getElem?_eq_getElem hlt,
      hholds i _ (List.getElem?_eq_getElem hlt)]
  · rw [List.getElem?_eq_none hge, List.getElem?_eq_none (by rw [List.length_range]; exact hge)]
    rfl

end Runs

/-- All steps of the following runs are in one direction, and none is cancelled. -/
def neverRapid (_ : Int) : Bool := false

/-- A far step comes while two steps are queued, and the flush sends only one of them. -/
def farCalls : List Call :=
  [.op (.append ⟨true, 1000⟩), .op (.append ⟨true, 500000000⟩), .op (.append ⟨true, 805306868⟩),
    .op .commit]

theorem stores_in_storage_farCalls : ∃ o,
    Run (step 20 neverRapid)
      (fun o c => LegalCall o c ∧ (Appends neverRapid o.s c → farRoom o.s))
      { s := stepcompressAlloc 25 false } farCalls o ∧
    stores o.accesses = [⟨0, 1024⟩, ⟨1, 1024⟩, ⟨2, 1024⟩] ∧ o.s.queuePos = 1 ∧
    o.s.queueNext ≤ o.s.queueEnd := by
  obtain ⟨o, hrun, ho⟩ : ∃ o,
      Run (step 20 neverRapid)
        (fun o c => LegalCall o c ∧ (Appends neverRapid o.s c → farRoom o.s))
        { s := stepcompressAlloc 25 false } farCalls o ∧
      decide (stores o.accesses = [⟨0, 1024⟩, ⟨1, 1024⟩, ⟨2, 1024⟩] ∧ o.s.queuePos = 1) = true :=
    Run.exists_of_exec farCalls _ (by decide +kernel)
  obtain ⟨hstores, hpos⟩ := of_decide_eq_true ho
  exact ⟨o, hrun, hstores, hpos, (stores_in_storage hrun).2.1⟩

theorem array_of_run_farCalls : ∃ o,
    Run (step 20 neverRapid)
      (fun o c => LegalCall o c ∧ (Appends neverRapid o.s c → farRoom o.s))
      { s := stepcompressAlloc 25 false } farCalls o ∧
    o.s.queue = [500000000, 805306868] ∧
    o.s.queue = (List.range (o.s.queueNext - o.s.queuePos)).map fun i =>
      contents (fun _ => 7) (fun _ => 0) o.accesses (o.s.queuePos + i) := by
  obtain ⟨o, hrun, ho⟩ : ∃ o,
      Run (step 20 neverRapid)
        (fun o c => LegalCall o c ∧ (Appends neverRapid o.s c → farRoom o.s))
        { s := stepcompressAlloc 25 false } farCalls o ∧
      decide (o.s.queue = [500000000, 805306868]) = true :=
    Run.exists_of_exec farCalls _ (by decide +kernel)
  exact ⟨o, hrun, of_decide_eq_true ho, array_of_run hrun _ _⟩

/-! ### A full queue -/

/-- The step that fills the queue. -/
def nearStep : Step := ⟨true, 500000000⟩

/-- It is far from the start and not far from the first step. -/
def farStep : Step := ⟨true, 805306868⟩

/-- The first step and `n` others are queued, and one is pending. -/
def filled (n : Nat) : Stepper :=
  { stepcompressAlloc 25 false with
    queue := 1000 :: List.replicate n 500000000
    sdir := 1
    nextStepClock := 500000000
    nextStepDir := true
    queueAlloc := 1024
    msgs := [.setNextStepDir true 0]
    appended := ⟨true, 1000⟩ :: List.replicate (n + 1) nearStep
    net := ⟨true, 1000⟩ :: List.replicate (n + 1) nearStep
    queued := ⟨true, 1000⟩ :: List.replicate n nearStep }

lemma store_filled (n : Nat) : store (appendPending (filled n)) nearStep = filled (n + 1) := by
  simp only [store, appendPending, push, filled, List.replicate_succ', List.cons_append]
  rfl

lemma queueNext_filled (n : Nat) : (filled n).queueNext = n + 1 := by
  change 0 + (1000 :: List.replicate n _).length = n + 1
  rw [List.length_cons, List.length_replicate, Nat.zero_add]

lemma appendInDir_filled {n : Nat} (hn : n < 1023) :
    appendInDir 20 (filled n) =
      some (stored (filled n) (appendPending (filled n)) (filled n).nextStep) := by
  have hnear : ¬(filled n).IsFar (filled n).nextStepClock := by
    change ¬(0 + clockDiffMax) % 2 ^ 64 ≤ 500000000
    decide
  have hroom : ¬(filled n).queueEnd ≤ (filled n).queueNext := by
    rw [queueNext_filled]
    change ¬1024 ≤ n + 1
    omega
  rw [appendInDir, if_neg hnear, if_neg hroom]

lemma call_filled {n : Nat} (hn : n < 1023) (hdir : st.dir = true) :
    call 20 neverRapid (filled n) (.op (.append st)) =
      some { s := store (appendPending (filled n)) st, accesses := [.store (n + 1) 1024 500000000] } := by
  have hdir' : ¬(st.dir ≠ (filled n).nextStepDir ∧
      neverRapid (toInt64 (st.clock - (filled n).nextStepClock)) = true) := fun h => h.1 hdir
  have hpending : (filled n).nextStepClock ≠ 0 := by
    change 500000000 ≠ 0
    decide
  have hsdir : setNextStepDir 20 (filled n) (filled n).nextStepDir = some { s := filled n } :=
    if_pos rfl
  change stepcompressAppend 20 neverRapid (filled n) st = _
  rw [stepcompressAppend, if_neg hpending, if_neg hdir', queueAppend, hsdir]
  simp only [andThen, Option.bind_some, if_true, appendInDir_filled hn, Option.map_some, stored,
    queueNext_filled, List.nil_append, List.append_nil]
  rfl

lemma legal_filled (n : Nat) (accesses : List Access) (hlt : st.clock < 2 ^ 64)
    (h : nearStep.clock ≤ st.clock) :
    LegalCall { s := filled n, accesses := accesses } (.op (.append st)) := by
  refine ⟨lt_of_lt_of_le (by decide) h, hlt, ?_⟩
  intro st' hst'
  rcases List.mem_cons.mp hst' with rfl | hmem
  · exact le_trans (by decide) h
  · rw [List.eq_of_mem_replicate hmem]
    exact h

lemma run_filled {n : Nat} (hn : n ≤ 1023) : ∃ calls accesses, Run (step 20 neverRapid) LegalCall
    { s := stepcompressAlloc 25 false } calls { s := filled n, accesses := accesses } := by
  induction n with
  | zero =>
    obtain ⟨o, hrun, ho⟩ : ∃ o, Run (step 20 neverRapid) LegalCall
        { s := stepcompressAlloc 25 false } [.op (.append ⟨true, 1000⟩), .op (.append nearStep)] o ∧
        decide (o.s = filled 0 ∧ o.ok = true) = true :=
      Run.exists_of_exec _ _ (by decide +kernel)
    obtain ⟨s, ok, accesses⟩ := o
    obtain ⟨rfl, rfl⟩ := of_decide_eq_true ho
    exact ⟨_, accesses, hrun⟩
  | succ n ih =>
    obtain ⟨calls, accesses, hrun⟩ := ih (by omega)
    refine ⟨_, accesses ++ [.store (n + 1) 1024 500000000],
      hrun.snoc (legal_filled n accesses (by decide) le_rfl) ?_⟩
    rw [step, call_filled hn rfl, store_filled]
    rfl

/-- The queue is full when a far step comes, and the flush sends only the first step. The far step
is then stored at `queue_end`. -/
theorem store_at_queueEnd : ∃ calls o,
    Run (step 20 neverRapid) LegalCall { s := stepcompressAlloc 25 false } calls o ∧
    o.ok = true ∧ ⟨1024, 1024⟩ ∈ stores o.accesses ∧ o.s.queueEnd < o.s.queueNext := by
  obtain ⟨calls, accesses, hrun⟩ := run_filled (n := 1022) (by decide)
  have hcommit : ((call 20 neverRapid (store (appendPending (filled 1022)) farStep)
      (.op .commit)).any fun o => decide (o.ok = true ∧ ⟨1024, 1024⟩ ∈ stores o.accesses ∧
        o.s.queueEnd < o.s.queueNext)) = true := by
    decide +kernel
  obtain ⟨o, ho, hstores⟩ := (Option.any_eq_true _ _).mp hcommit
  obtain ⟨hok, hmem, hlt⟩ := of_decide_eq_true hstores
  let full : Outcome := ⟨store (appendPending (filled 1022)) farStep, true,
    accesses ++ [.store 1023 1024 500000000]⟩
  have hfar : step 20 neverRapid { s := filled 1022, accesses := accesses } (.op (.append farStep)) =
      some full := by
    rw [step, call_filled (by decide) rfl]
    rfl
  have hlegal : LegalCall { s := filled 1022, accesses := accesses } (.op (.append farStep)) :=
    legal_filled 1022 accesses (by decide) (by decide)
  have hlast : step 20 neverRapid full (.op .commit) =
      some { o with accesses := full.accesses ++ o.accesses } := by
    rw [step, ho]
    rfl
  have hcalls := (hrun.snoc hlegal hfar).snoc (show LegalCall full (.op .commit) from trivial) hlast
  refine ⟨_, _, hcalls, hok, ?_, hlt⟩
  rw [stores, List.filterMap_append]
  exact List.mem_append_right _ hmem

end KlipperMcu.StepStorage
