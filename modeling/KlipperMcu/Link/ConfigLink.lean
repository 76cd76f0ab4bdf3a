import KlipperMcu.Firmware.Oids

/-!
# Configuration of a micro-controller

mcu.py configures a micro-controller once after its reset, and later hosts only compare a checksum
of their commands with that of the commands it got. A host can fail at any time, and a micro-controller
can shut down or be reset at any time, which ends the connection. The commands that are sent after
the configuration are left out: they do not change it.
-/

namespace KlipperMcu.ConfigLink

open Lib Oids

variable {τ : Type}

section Oids

variable {L : Layout} {s s' : State τ}

/-- A command keeps the number of moves, and the table of objects once there is one. -/
structure Keeps (s s' : State τ) : Prop where
  moveCount : s'.moveCount = s.moveCount
  oids : s.oids.isSome = true → s'.oids.isSome = true

lemma keeps_moveQueueSetup (h : Keeps s s') (size : Nat) :
    Keeps s (leave (moveQueueSetup s' size)) := by
  unfold moveQueueSetup
  split_ifs <;> exact ⟨h.moveCount, h.oids⟩

lemma keeps_commandConfig (oid : UInt8) (type : τ) (size : UInt16) (moveSize : Option Nat) :
    Keeps s (leave (commandConfig L s oid type size moveSize)) := by
  have hmap {o : Option (List (Oid τ))} (f : List (Oid τ) → List (Oid τ))
      (h : o.isSome = true) : (o.map f).isSome = true := by
    rwa [Option.isSome_map]
  unfold commandConfig
  rcases oidAlloc_cases L s oid type size.toNat with heq | ⟨-, heq | heq⟩
  · rw [heq]
    exact ⟨rfl, id⟩
  · rw [heq]
    exact ⟨rfl, hmap _⟩
  · rw [heq]
    have hassigned : Keeps s (s.assigned oid.toNat type size.toNat) :=
      ⟨rfl, fun h => hmap _ (hmap _ h)⟩
    cases moveSize with
    | none => exact hassigned
    | some moveSize => exact keeps_moveQueueSetup hassigned moveSize

lemma moveFinalize_cases (L : Layout) (s : State τ) :
    (∃ s', moveFinalize L s = .error s' ∧ Keeps s s') ∨
      ∃ s', moveFinalize L s = .ok s' ∧ s'.oids = s.oids ∧ s'.isShutdown = s.isShutdown := by
  unfold moveFinalize moveQueueSetup allocChunks allocChunk
  split_ifs
  · exact Or.inl ⟨_, rfl, rfl, id⟩
  · exact Or.inl ⟨_, rfl, rfl, id⟩
  · simp only [Except.bind]
    split_ifs
    · exact Or.inl ⟨_, rfl, rfl, id⟩
    · exact Or.inl ⟨_, rfl, rfl, id⟩
    · exact Or.inr ⟨_, rfl, rfl, rfl⟩

end Oids

/-- basecmd.c with the checksum of `finalize_config`. -/
structure Mcu (τ : Type) where
  oids : State τ
  configCrc : UInt32 := 0

inductive Message (τ : Type) where
  | command (a : Oids.Action τ)
  | finalizeConfig (crc : UInt32)

/-- A message of the host. A micro-controller that is shut down refuses it. -/
def receive [DecidableEq τ] (L : Layout) (m : Mcu τ) (msg : Message τ) : Mcu τ :=
  if m.oids.isShutdown then m
  else
    match msg with
    | .command a => { m with oids := (Oids.step L m.oids a).getD m.oids }
    | .finalizeConfig crc =>
      match moveFinalize L m.oids with
      | .ok s => ⟨s, crc⟩
      | .error s => { m with oids := { s with isShutdown := true } }

def reset (L : Layout) : Mcu τ := { oids := boot L }

structure ConfigReply where
  isConfig : Bool
  crc : UInt32
  isShutdown : Bool
  moveCount : Nat

def commandGetConfig (m : Mcu τ) : ConfigReply :=
  ⟨m.oids.isFinalized, m.configCrc, m.oids.isShutdown, m.oids.moveCount⟩

/-- The commands that configure objects. -/
def Configures : Oids.Action τ → Prop
  | .allocateOids _ => True
  | .config _ _ _ _ => True
  | .setSoftwareBus _ _ _ => True
  | .lookup _ _ => True
  | _ => False

/-- The objects of a host. -/
structure Config (τ : Type) where
  oidCount : UInt8
  configCmds : List (Oids.Action τ)
  reservedMoveSlots : Nat
  configures : ∀ a ∈ configCmds, Configures a

def Config.cmds (c : Config τ) : List (Oids.Action τ) := .allocateOids c.oidCount :: c.configCmds

lemma configures_cmds (c : Config τ) : ∀ a ∈ c.cmds, Configures a :=
  List.forall_mem_cons.mpr ⟨trivial, c.configures⟩

inductive Phase (τ : Type) where
  | getConfig
  | sending (rest : List (Message τ))
  | connected (moveCount : Nat)

section Host

variable (crc32 : List (Oids.Action τ) → UInt32) (c : Config τ)

/-- What `_send_config` sends. -/
def Config.messages : List (Message τ) :=
  c.cmds.map .command ++ [.finalizeConfig (crc32 c.cmds)]

def setupSteppersync (reply : ConfigReply) : Option (Phase τ) :=
  if reply.moveCount < c.reservedMoveSlots then none else some (.connected reply.moveCount)

/-- The first part of `_connect`, which may raise an error. -/
def connect (reply : ConfigReply) : Option (Phase τ) :=
  if reply.isShutdown then none
  else if !reply.isConfig then some (.sending (c.messages crc32))
  else if crc32 c.cmds ≠ reply.crc then none
  else setupSteppersync c reply

/-- The rest of it, after the configuration was sent. -/
def connectConfigured (reply : ConfigReply) : Option (Phase τ) :=
  if reply.isShutdown then none else if !reply.isConfig then none else setupSteppersync c reply

end Host

/-- A micro-controller and a host, with all hosts so far. -/
structure Link (τ : Type) where
  mcu : Mcu τ
  host : Option (Config τ × Phase τ) := none
  started : List (Config τ) := []

inductive Action (τ : Type) where
  | start (c : Config τ)
  | host
  | fail
  | shutdown
  | reset

variable [DecidableEq τ] (L : Layout) (crc32 : List (Oids.Action τ) → UInt32)

def step (s : Link τ) : Action τ → Option (Link τ)
  | .start c => some { s with host := some (c, .getConfig), started := c :: s.started }
  | .host =>
    match s.host with
    | some (c, .getConfig) =>
      some { s with host := (connect crc32 c (commandGetConfig s.mcu)).map (c, ·) }
    | some (c, .sending (m :: rest)) =>
      some { s with mcu := receive L s.mcu m, host := some (c, .sending rest) }
    | some (c, .sending []) =>
      some { s with host := (connectConfigured c (commandGetConfig s.mcu)).map (c, ·) }
    | _ => none
  | .fail => some { s with host := none }
  | .shutdown =>
    some { s with mcu := { s.mcu with oids := { s.mcu.oids with isShutdown := true } } }
  | .reset => some { s with mcu := ConfigLink.reset L, host := none }

def Legal (_ : Link τ) (_ : Action τ) : Prop := True

instance (s : Link τ) (a : Action τ) : Decidable (Legal s a) := isTrue trivial

/-- A micro-controller that has got nothing but some messages since its reset. -/
def after (messages : List (Message τ)) : Mcu τ := messages.foldl (receive L) (ConfigLink.reset L)

/-- A micro-controller is in the state that the configuration of one host leads to, without an
error. It may have been shut down later. -/
structure Configured (c : Config τ) (m : Mcu τ) : Prop where
  configCrc : m.configCrc = crc32 c.cmds
  isFinalized : m.oids.isFinalized = true
  eq : after L (c.messages crc32) = { m with oids := { m.oids with isShutdown := false } }

/-- A configuration that was begun cannot be begun again. -/
def Begun (m : Mcu τ) : Prop := m.oids.isShutdown = true ∨ m.oids.oids.isSome = true

/-- What a host knows of the micro-controller. -/
def Knows (c : Config τ) (m : Mcu τ) : Phase τ → Prop
  | .getConfig => True
  | .sending rest => m.oids.isShutdown = true ∨
      (rest = c.messages crc32 ∧ m.oids.oids.isSome = true ∧ m.oids.isFinalized = false) ∨
      ∃ sent, c.messages crc32 = sent ++ rest ∧ m = after L sent ∧ (sent = [] ∨ Begun m)
  | .connected moveCount => m.oids.isFinalized = true ∧ m.configCrc = crc32 c.cmds ∧
      moveCount = m.oids.moveCount ∧ c.reservedMoveSlots ≤ moveCount

structure Inv (s : Link τ) : Prop where
  configured : s.mcu.oids.isFinalized = true → ∃ c ∈ s.started, Configured L crc32 c s.mcu
  begun : s.mcu.oids.isFinalized = true ∨ Begun s.mcu ∨ s.mcu = ConfigLink.reset L
  host : ∀ c phase, s.host = some (c, phase) → c ∈ s.started ∧ Knows L crc32 c s.mcu phase

section Messages

variable {L crc32} {m : Mcu τ} {s s' : State τ} {a : Oids.Action τ} {sent rest : List (Message τ)}
  {c : Config τ}

lemma keeps_step (ha : Configures a) (h : Oids.step L s a = some s') : Keeps s s' := by
  have hcommand {r : Except (State τ) (State τ)} (hr : Keeps s (leave r))
      (h : s.command r = some s') : Keeps s s' := by
    unfold State.command at h
    split at h
    · cases h
    · cases h
      exact hr
  cases a with
  | allocateOids count =>
    apply hcommand _ h
    unfold commandAllocateOids allocChunk
    split_ifs <;> exact ⟨rfl, fun h => by first | exact h | rfl⟩
  | config oid type size moveSize => exact hcommand (keeps_commandConfig oid type size moveSize) h
  | setSoftwareBus oid type size =>
    apply hcommand _ h
    unfold commandSetSoftwareBus oidLookup allocChunk
    split_ifs <;> exact ⟨rfl, id⟩
  | lookup oid type =>
    apply hcommand _ h
    unfold oidLookup
    split_ifs <;> exact ⟨rfl, id⟩
  | _ => exact ha.elim

/-- The messages of a configuration. -/
def Message.Valid : Message τ → Prop
  | .command a => Configures a
  | .finalizeConfig _ => True

omit [DecidableEq τ] in
lemma valid_messages (c : Config τ) : ∀ msg ∈ c.messages crc32, msg.Valid := by
  intro msg hmsg
  rcases List.mem_append.mp hmsg with hmsg | hmsg
  · obtain ⟨a, ha, rfl⟩ := List.mem_map.mp hmsg
    exact configures_cmds c a ha
  · rw [List.mem_singleton.mp hmsg]
    trivial

lemma receive_of_shutdown (msg : Message τ) (h : m.oids.isShutdown = true) :
    receive L m msg = m := if_pos h

lemma Begun.receive {msg : Message τ} (hmsg : msg.Valid) (h : Begun m) :
    Begun (receive L m msg) := by
  by_cases hshutdown : m.oids.isShutdown = true
  · rw [receive_of_shutdown msg hshutdown]
    exact h
  have hsome := h.resolve_left hshutdown
  unfold ConfigLink.receive
  rw [if_neg hshutdown]
  cases msg with
  | command a =>
    dsimp only
    cases hstep : Oids.step L m.oids a with
    | none => exact h
    | some s => exact Or.inr ((keeps_step hmsg hstep).oids hsome)
  | finalizeConfig crc =>
    dsimp only
    rcases moveFinalize_cases L m.oids with ⟨s, heq, -⟩ | ⟨s, heq, hoids, -⟩
    · rw [heq]
      exact Or.inl rfl
    · rw [heq]
      exact Or.inr (hoids ▸ hsome)

lemma receive_allocateOids (count : UInt8) (h : m.oids.isShutdown = false) :
    (m.oids.oids = none → Begun (receive L m (.command (.allocateOids count)))) ∧
    (m.oids.oids.isSome = true → receive L m (.command (.allocateOids count)) =
      { m with oids := { m.oids with isShutdown := true } }) := by
  have hreceive : receive L m (.command (.allocateOids count)) =
      { m with oids := leave (commandAllocateOids L m.oids count) } := by
    have hrunning : ¬ m.oids.isShutdown = true := by rw [h]; simp
    have hstep : Oids.step L m.oids (.allocateOids count) =
        some (leave (commandAllocateOids L m.oids count)) := if_neg hrunning
    rw [receive, if_neg hrunning, hstep]
    rfl
  rw [hreceive]
  unfold commandAllocateOids allocChunk
  constructor
  · intro hnone
    rw [if_neg (by rw [hnone]; simp)]
    split_ifs
    · exact Or.inl rfl
    · exact Or.inr rfl
  · intro hsome
    rw [if_pos hsome]
    rfl

lemma moveCount_after (hsent : ∀ msg ∈ sent, ∃ a, Configures a ∧ msg = .command a) :
    (after L sent).oids.moveCount = 0 := by
  unfold after
  have hstart : (reset L : Mcu τ).oids.moveCount = 0 := rfl
  generalize reset L = m at hstart
  induction sent generalizing m with
  | nil => exact hstart
  | cons msg sent ih =>
    obtain ⟨⟨a, ha, rfl⟩, hrest⟩ := List.forall_mem_cons.mp hsent
    apply ih hrest
    unfold receive
    split_ifs
    · exact hstart
    dsimp only
    cases hstep : Oids.step L m.oids a with
    | none => exact hstart
    | some s => exact (keeps_step ha hstep).moveCount.trans hstart

lemma configured_after (hsent : c.messages crc32 = sent ++ rest)
    (h : (after L sent).oids.isFinalized = true) : Configured L crc32 c (after L sent) := by
  have hcmds {sent rest : List (Message τ)} (hsent : c.cmds.map Message.command = sent ++ rest) :
      (after L sent).oids.moveCount = 0 := by
    apply moveCount_after
    intro msg hmsg
    obtain ⟨a, ha, rfl⟩ := List.mem_map.mp (hsent ▸ List.mem_append_left rest hmsg)
    exact ⟨a, configures_cmds c a ha, rfl⟩
  rcases List.eq_nil_or_concat rest with rfl | ⟨rest, msg, rfl⟩
  · rw [List.append_nil] at hsent
    subst hsent
    have hcount := hcmds (List.append_nil _).symm
    suffices hlast : (after L (c.messages crc32)).oids.isShutdown = false ∧
        (after L (c.messages crc32)).configCrc = crc32 c.cmds from
      ⟨hlast.2, h, by rw [← hlast.1]⟩
    have hafter : after L (c.messages crc32) = receive L (after L (c.cmds.map .command))
        (.finalizeConfig (crc32 c.cmds)) := List.foldl_append
    rw [hafter] at h ⊢
    unfold receive at h ⊢
    dsimp only at h ⊢
    split at h
    · exact absurd h (by simp [State.isFinalized, hcount])
    · rename_i hrunning
      rw [if_neg hrunning]
      rcases moveFinalize_cases L (after L (c.cmds.map .command)).oids with
        ⟨s, heq, hkeeps⟩ | ⟨s, heq, -, hshutdown⟩
      · rw [heq] at h
        exact absurd h (by simp [State.isFinalized, hkeeps.moveCount, hcount])
      · rw [heq]
        exact ⟨hshutdown.trans (eq_false_of_ne_true hrunning), rfl⟩
  · rw [List.concat_eq_append, ← List.append_assoc] at hsent
    have hcount := hcmds (List.append_inj' hsent rfl).1
    exact absurd h (by simp [State.isFinalized, hcount])

end Messages

section Steps

variable {L crc32} {s s' : Link τ}

lemma Inv.receive (h : Inv L crc32 s) {c : Config τ} {msg : Message τ} {rest : List (Message τ)}
    (hhost : s.host = some (c, .sending (msg :: rest))) :
    Inv L crc32 { s with mcu := receive L s.mcu msg, host := some (c, .sending rest) } := by
  obtain ⟨hstarted, hknows⟩ := h.host c _ hhost
  by_cases hshutdown : s.mcu.oids.isShutdown = true
  · rw [receive_of_shutdown msg hshutdown]
    refine ⟨h.configured, h.begun, ?_⟩
    rintro _ _ ⟨rfl⟩
    exact ⟨hstarted, Or.inl hshutdown⟩
  rcases hknows.resolve_left hshutdown with ⟨hall, hsome, hopen⟩ | ⟨sent, hsent, hmcu, hbegun⟩
  · obtain ⟨rfl, -⟩ := List.cons_eq_cons.mp hall
    rw [(receive_allocateOids c.oidCount (eq_false_of_ne_true hshutdown)).2 hsome]
    refine ⟨fun hfinal => ?_, Or.inr (Or.inl (Or.inl rfl)), ?_⟩
    · exact absurd (hopen.symm.trans hfinal) Bool.false_ne_true
    · rintro _ _ ⟨rfl⟩
      exact ⟨hstarted, Or.inl rfl⟩
  · have hafter : ConfigLink.receive L s.mcu msg = after L (sent ++ [msg]) := by
      rw [hmcu, after, after, List.foldl_append]
      rfl
    have hnext : c.messages crc32 = sent ++ [msg] ++ rest := by
      rw [hsent, List.append_assoc]
      rfl
    have hbegun' : Begun (ConfigLink.receive L s.mcu msg) := by
      rcases hbegun with rfl | hbegun
      · obtain ⟨rfl, -⟩ := List.cons_eq_cons.mp hsent
        exact (receive_allocateOids c.oidCount (eq_false_of_ne_true hshutdown)).1
          (by rw [hmcu]; rfl)
      · exact hbegun.receive (valid_messages c msg (by rw [hsent]; simp))
    refine ⟨fun hfinal => ⟨c, hstarted, ?_⟩, Or.inr (Or.inl hbegun'), ?_⟩
    · rw [hafter] at hfinal ⊢
      exact configured_after hnext hfinal
    · rintro _ _ ⟨rfl⟩
      exact ⟨hstarted, Or.inr (Or.inr ⟨_, hnext, hafter, Or.inr hbegun'⟩)⟩

lemma Inv.connect (h : Inv L crc32 s) {c : Config τ} {phase : Phase τ}
    (hconnect : connect crc32 c (commandGetConfig s.mcu) = some phase) :
    Knows L crc32 c s.mcu phase := by
  unfold ConfigLink.connect setupSteppersync at hconnect
  split_ifs at hconnect with hshutdown hopen hcrc hfew
  · cases hconnect
    have hopen' : s.mcu.oids.isFinalized = false := by simpa [commandGetConfig] using hopen
    rcases h.begun with hfinal | (hshutdown' | hsome) | hreset
    · exact absurd (hopen'.symm.trans hfinal) Bool.false_ne_true
    · exact absurd hshutdown' hshutdown
    · exact Or.inr (Or.inl ⟨rfl, hsome, hopen'⟩)
    · exact Or.inr (Or.inr ⟨[], rfl, hreset, Or.inl rfl⟩)
  · cases hconnect
    exact ⟨by simpa [commandGetConfig] using hopen, (not_not.mp hcrc).symm, rfl, Nat.not_lt.mp hfew⟩

lemma Knows.connectConfigured {c : Config τ} {m : Mcu τ} {phase : Phase τ}
    (h : Knows L crc32 c m (.sending []))
    (hconnect : connectConfigured c (commandGetConfig m) = some phase) :
    Knows L crc32 c m phase := by
  unfold ConfigLink.connectConfigured setupSteppersync at hconnect
  split_ifs at hconnect with hshutdown hopen hfew
  cases hconnect
  have hfinal : m.oids.isFinalized = true := by simpa [commandGetConfig] using hopen
  rcases h.resolve_left hshutdown with ⟨hall, -⟩ | ⟨sent, hsent, hmcu, -⟩
  · cases hall
  · rw [hmcu] at hfinal ⊢
    exact ⟨hfinal, (configured_after hsent hfinal).configCrc, rfl, hmcu ▸ Nat.not_lt.mp hfew⟩

lemma Inv.step {a : Action τ} (h : Inv L crc32 s) (hstep : step L crc32 s a = some s') :
    Inv L crc32 s' := by
  have hmap {c : Config τ} {result : Option (Phase τ)} (hstarted : c ∈ s.started)
      (hknows : ∀ phase, result = some phase → Knows L crc32 c s.mcu phase) :
      Inv L crc32 { s with host := result.map (c, ·) } := by
    refine ⟨h.configured, h.begun, fun c' phase heq => ?_⟩
    obtain ⟨phase, hphase, heq⟩ := Option.map_eq_some_iff.mp heq
    cases heq
    exact ⟨hstarted, hknows phase hphase⟩
  cases a with
  | start c =>
    cases hstep
    refine ⟨fun hfinal => ?_, h.begun, ?_⟩
    · obtain ⟨c', hc', hconfigured⟩ := h.configured hfinal
      exact ⟨c', List.mem_cons_of_mem c hc', hconfigured⟩
    · rintro _ _ ⟨rfl⟩
      exact ⟨List.mem_cons_self, trivial⟩
  | host =>
    unfold ConfigLink.step at hstep
    dsimp only at hstep
    split at hstep
    · rename_i c hhost
      cases hstep
      exact hmap (h.host c _ hhost).1 fun _ => h.connect
    · rename_i c msg rest hhost
      cases hstep
      exact h.receive hhost
    · rename_i c hhost
      cases hstep
      obtain ⟨hstarted, hknows⟩ := h.host c _ hhost
      exact hmap hstarted fun _ => hknows.connectConfigured
    · cases hstep
  | fail =>
    cases hstep
    exact ⟨h.configured, h.begun, nofun⟩
  | shutdown =>
    cases hstep
    refine ⟨fun hfinal => ?_, Or.inr (Or.inl (Or.inl rfl)), fun c phase hhost => ?_⟩
    · obtain ⟨c, hc, hconfigured⟩ := h.configured hfinal
      exact ⟨c, hc, hconfigured.configCrc, hconfigured.isFinalized, hconfigured.eq⟩
    · obtain ⟨hstarted, hknows⟩ := h.host c phase hhost
      refine ⟨hstarted, ?_⟩
      cases phase with
      | getConfig => trivial
      | sending rest => exact Or.inl rfl
      | connected moveCount => exact hknows
  | reset =>
    cases hstep
    exact ⟨nofun, Or.inr (Or.inr rfl), nofun⟩

end Steps

/-- In every run a micro-controller that is configured has got all commands of one host, and no
others. A host is connected only if the commands of that host have the checksum of its own, and it
knows how many moves there are. -/
theorem run_configured {L : Layout} {crc32 : List (Oids.Action τ) → UInt32} {s : Link τ}
    {actions : List (Action τ)} (h : Run (step L crc32) Legal ⟨reset L, none, []⟩ actions s) :
    (s.mcu.oids.isFinalized = true → ∃ c ∈ s.started, Configured L crc32 c s.mcu) ∧
    ∀ c moveCount, s.host = some (c, .connected moveCount) →
      moveCount = s.mcu.oids.moveCount ∧ c.reservedMoveSlots ≤ moveCount ∧
      ∃ c' ∈ s.started, crc32 c'.cmds = crc32 c.cmds ∧ Configured L crc32 c' s.mcu := by
  have hinv : Inv L crc32 s := h.invariant ⟨nofun, Or.inr (Or.inr rfl), nofun⟩
    fun _ _ _ hs _ hstep => hs.step hstep
  refine ⟨hinv.configured, ?_⟩
  intro c moveCount hhost
  obtain ⟨-, hfinal, hcrc, hcount, hslots⟩ := hinv.host c _ hhost
  obtain ⟨c', hc', hconfigured⟩ := hinv.configured hfinal
  exact ⟨hcount, hslots, c', hc', hconfigured.configCrc.symm.trans hcrc, hconfigured⟩

/-- A host with one object, and some moves that it needs. -/
def oneObject (size : UInt16) (slots : Nat) : Config Nat :=
  ⟨1, [.config 0 7 size (some 12)], slots, by simp [Configures]⟩

/-- The first host fails before the end, the second one finds this out, and after a reset the third
one configures the micro-controller for the fourth one too. -/
def fourHosts : List (Action Nat) :=
  [.start (oneObject 8 2), .host, .host, .host, .fail,
    .start (oneObject 16 2), .host, .host, .host, .host, .host, .reset,
    .start (oneObject 16 2), .host, .host, .host, .host, .host,
    .start (oneObject 16 2), .host]

theorem run_configured_fourHosts :
    let L : Layout := ⟨4, 400, by decide⟩
    let crc32 : List (Oids.Action Nat) → UInt32 := fun cmds => UInt32.ofNat cmds.length
    ∃ s c moveCount, Run (step L crc32) Legal ⟨reset L, none, []⟩ fourHosts s ∧
      s.host = some (c, .connected moveCount) ∧
      ∃ c' ∈ s.started, crc32 c'.cmds = crc32 c.cmds ∧ Configured L crc32 c' s.mcu := by
  intro L crc32
  have hexec : ∃ s, Run (step L crc32) Legal ⟨reset L, none, []⟩ fourHosts s ∧
      (s.host.any fun host => host.2 matches .connected _) = true :=
    Run.exists_of_exec _ _ (by decide +kernel)
  obtain ⟨s, hrun, hconnected⟩ := hexec
  obtain ⟨⟨c, phase⟩, hhost, hphase⟩ := (Option.any_eq_true _ _).mp hconnected
  cases phase with
  | connected moveCount =>
    exact ⟨s, c, moveCount, hrun, hhost, ((run_configured hrun).2 c moveCount hhost).2.2⟩
  | _ => cases hphase

end KlipperMcu.ConfigLink
