import Mathlib.Data.List.Basic

/-!
# Incremental parsers

A finder looks at the start of a buffer. It asks for more input, or says how much of the buffer is
done with, with the outputs for that part and the state to go on with. `Finder.feed` calls it until
it asks for more input.

A finder may have to decide on a part of the input that it would have taken as a longer part if it
had seen more. It is coherent when this makes no difference to the outputs, so that it does not
matter when it is called.
-/

namespace KlipperMcu.Lib

structure Finder (σ α γ : Type*) where
  find : σ → List α → Option (Nat × σ × List γ)
  progress : ∀ {s buf n s' out}, find s buf = some (n, s', out) → 0 < n ∧ n ≤ buf.length

/-- The outputs of a finder, the state it is left in and the input it has not used. -/
structure Fed (σ α γ : Type*) where
  out : List γ
  state : σ
  rest : List α

def Fed.after {σ α γ : Type*} (f : Fed σ α γ) (out : List γ) : Fed σ α γ :=
  { f with out := out ++ f.out }

lemma Fed.after_after {σ α γ : Type*} (f : Fed σ α γ) (out out' : List γ) :
    (f.after out').after out = f.after (out ++ out') :=
  congrArg (Fed.mk · f.state f.rest) (List.append_assoc _ _ _).symm

namespace Finder

variable {σ α γ : Type*} (F : Finder σ α γ) {s s' s'' : σ} {buf more : List α} {n m : Nat}
  {out out' : List γ}

def feedFuel : Nat → σ → List α → Fed σ α γ
  | 0, s, buf => ⟨[], s, buf⟩
  | fuel + 1, s, buf =>
    match F.find s buf with
    | none => ⟨[], s, buf⟩
    | some (n, s', out) => (feedFuel fuel s' (buf.drop n)).after out

/-- Calls the finder until it asks for more input. -/
def feed (s : σ) (buf : List α) : Fed σ α γ := F.feedFuel buf.length s buf

/-- A chunk of input arrives behind what is left over. -/
def receive (f : Fed σ α γ) (chunk : List α) : Fed σ α γ :=
  (F.feed f.state (f.rest ++ chunk)).after f.out

def receiveAll (s : σ) (chunks : List (List α)) : Fed σ α γ :=
  chunks.foldl F.receive ⟨[], s, []⟩

lemma receiveAll_snoc (s : σ) (chunks : List (List α)) (chunk : List α) :
    F.receiveAll s (chunks ++ [chunk]) = F.receive (F.receiveAll s chunks) chunk :=
  List.foldl_append

/-- What is left to do after a part was taken does not depend on how much was seen beyond it. -/
def Coherent : Prop :=
  ∀ {s buf n s' out}, F.find s buf = some (n, s', out) → ∀ more,
    F.feed s (buf ++ more) = (F.feed s' (buf.drop n ++ more)).after out

variable {F}

lemma find_nil : F.find s [] = none := by
  cases h : F.find s [] with
  | none => rfl
  | some r =>
    obtain ⟨hpos, hle⟩ := F.progress h
    exact absurd hpos (Nat.not_lt.mpr hle)

lemma feedFuel_nil (fuel : Nat) : F.feedFuel fuel s [] = ⟨[], s, []⟩ := by
  cases fuel with
  | zero => rfl
  | succ fuel => rw [feedFuel, find_nil]

lemma feedFuel_eq {fuel fuel' : Nat} (h : buf.length ≤ fuel) (h' : buf.length ≤ fuel') :
    F.feedFuel fuel s buf = F.feedFuel fuel' s buf := by
  induction fuel generalizing fuel' s buf with
  | zero =>
    obtain rfl := List.length_eq_zero_iff.mp (Nat.le_zero.mp h)
    rw [feedFuel_nil, feedFuel_nil]
  | succ fuel ih =>
    cases fuel' with
    | zero =>
      obtain rfl := List.length_eq_zero_iff.mp (Nat.le_zero.mp h')
      rw [feedFuel_nil, feedFuel_nil]
    | succ fuel' =>
      cases hf : F.find s buf with
      | none => simp only [feedFuel, hf]
      | some r =>
        obtain ⟨n, s', out⟩ := r
        obtain ⟨hpos, hle⟩ := F.progress hf
        have hrest : (buf.drop n).length ≤ fuel ∧ (buf.drop n).length ≤ fuel' := by
          rw [List.length_drop]
          omega
        simp only [feedFuel, hf, ih hrest.1 hrest.2]

lemma feed_of_none (h : F.find s buf = none) : F.feed s buf = ⟨[], s, buf⟩ := by
  unfold feed
  cases buf.length with
  | zero => rfl
  | succ fuel => rw [feedFuel, h]

lemma feed_of_some (h : F.find s buf = some (n, s', out)) :
    F.feed s buf = (F.feed s' (buf.drop n)).after out := by
  obtain ⟨hpos, hle⟩ := F.progress h
  have hlen : (buf.drop n).length ≤ buf.length := by
    rw [List.length_drop]
    omega
  calc F.feed s buf = F.feedFuel (buf.length + 1) s buf := feedFuel_eq (Nat.le_refl _) (Nat.le_succ _)
    _ = (F.feedFuel buf.length s' (buf.drop n)).after out := by rw [feedFuel, h]
    _ = (F.feed s' (buf.drop n)).after out := by rw [feedFuel_eq hlen (Nat.le_refl _), feed]

/-- A finder is coherent when each part that it takes is either taken in the same way whatever
follows, or is all there is and is taken together with what the finder takes next. -/
theorem coherent_of_extends
    (h : ∀ {s buf n s' out}, F.find s buf = some (n, s', out) →
      (∀ more, F.find s (buf ++ more) = some (n, s', out)) ∨
      n = buf.length ∧ ∀ more, more ≠ [] → ∃ m s'' out', F.find s' more = some (m, s'', out') ∧
        F.find s (buf ++ more) = some (n + m, s'', out ++ out')) : F.Coherent := by
  intro s buf n s' out hf more
  obtain ⟨hpos, hle⟩ := F.progress hf
  rcases h hf with hsame | ⟨rfl, hjoin⟩
  · rw [feed_of_some (hsame more), List.drop_append_of_le_length hle]
  · rw [List.drop_length, List.nil_append]
    cases more with
    | nil => rw [List.append_nil, feed_of_some hf, List.drop_length]
    | cons a more =>
      obtain ⟨m, s'', out', hnext, hboth⟩ := hjoin (a :: more) (List.cons_ne_nil _ _)
      rw [feed_of_some hboth, feed_of_some hnext, List.drop_length_add_append, Fed.after_after]

lemma receive_after (f : Fed σ α γ) (chunk : List α) :
    F.receive (f.after out) chunk = (F.receive f chunk).after out := (Fed.after_after _ _ _).symm

lemma feed_nil : F.feed s [] = ⟨[], s, []⟩ := feedFuel_nil 0

/-- A coherent finder that is called before all of the input is there goes on where it stopped. -/
theorem feed_append (hF : F.Coherent) (s : σ) (buf more : List α) :
    F.feed s (buf ++ more) = F.receive (F.feed s buf) more := by
  induction hlen : buf.length using Nat.strongRecOn generalizing s buf with
  | ind len ih =>
    cases hf : F.find s buf with
    | none =>
      rw [feed_of_none hf]
      simp only [receive, Fed.after, List.nil_append]
    | some r =>
      obtain ⟨n, s', out⟩ := r
      obtain ⟨hpos, hle⟩ := F.progress hf
      have hshort : (buf.drop n).length < len := by
        rw [List.length_drop]
        omega
      rw [hF hf, feed_of_some hf, receive_after, ih _ hshort _ _ rfl]

/-- How the input of a coherent finder is cut into chunks makes no difference. -/
theorem receiveAll_eq (hF : F.Coherent) (s : σ) (chunks : List (List α)) :
    F.receiveAll s chunks = F.feed s chunks.flatten := by
  have hfold : ∀ buf, chunks.foldl F.receive (F.feed s buf) = F.feed s (buf ++ chunks.flatten) := by
    induction chunks with
    | nil =>
      intro buf
      rw [List.foldl_nil, List.flatten_nil, List.append_nil]
    | cons chunk chunks ih =>
      intro buf
      rw [List.foldl_cons, ← feed_append hF, ih, List.flatten_cons, List.append_assoc]
  have h := hfold []
  rwa [feed_nil, List.nil_append] at h

lemma find_feed (s : σ) (buf : List α) : F.find (F.feed s buf).state (F.feed s buf).rest = none := by
  induction hlen : buf.length using Nat.strongRecOn generalizing s buf with
  | ind len ih =>
    cases hf : F.find s buf with
    | none => rwa [feed_of_none hf]
    | some r =>
      obtain ⟨n, s', out⟩ := r
      obtain ⟨hpos, hle⟩ := F.progress hf
      rw [feed_of_some hf]
      apply ih (buf.drop n).length _ s' (buf.drop n) rfl
      rw [List.length_drop]
      omega

/-! A finder may wait where another one goes on. -/

section Lazy

variable {G : Finder σ α γ}

/-- What `F` takes `G` takes in the same way, and where `F` waits `G` has nothing to put out. -/
structure Lazy (F G : Finder σ α γ) : Prop where
  find : ∀ {s buf r}, F.find s buf = some r → G.find s buf = some r
  wait : ∀ {s buf}, F.find s buf = none → (G.feed s buf).out = []

lemma Lazy.feed (h : F.Lazy G) (hG : G.Coherent) (s : σ) (buf more : List α) :
    G.feed s (buf ++ more) =
      (G.feed (F.feed s buf).state ((F.feed s buf).rest ++ more)).after (F.feed s buf).out := by
  induction hlen : buf.length using Nat.strongRecOn generalizing s buf with
  | ind len ih =>
    cases hf : F.find s buf with
    | none =>
      rw [feed_of_none hf]
      rfl
    | some r =>
      obtain ⟨n, s', out⟩ := r
      obtain ⟨hpos, hle⟩ := F.progress hf
      have hshort : (buf.drop n).length < len := by
        rw [List.length_drop]
        omega
      rw [feed_of_some hf, hG (h.find hf), ih _ hshort _ _ rfl, Fed.after_after]
      rfl

/-- The outputs of a lazy finder do not depend on how its input is cut into chunks. -/
theorem Lazy.receiveAll_out (h : F.Lazy G) (hG : G.Coherent) (s : σ) (chunks : List (List α)) :
    (F.receiveAll s chunks).out = (G.feed s chunks.flatten).out := by
  have hfold : ∀ (f : Fed σ α γ) (input : List α), F.find f.state f.rest = none →
      (∀ more, G.feed s (input ++ more) = (G.feed f.state (f.rest ++ more)).after f.out) →
      (chunks.foldl F.receive f).out = (G.feed s (input ++ chunks.flatten)).out := by
    induction chunks with
    | nil =>
      intro f input hwait hf
      rw [List.flatten_nil, hf [], List.append_nil]
      simp only [Fed.after, h.wait hwait, List.append_nil, List.foldl_nil]
    | cons chunk chunks ih =>
      intro f input _ hf
      rw [List.foldl_cons, List.flatten_cons, ← List.append_assoc]
      apply ih
      · exact find_feed f.state (f.rest ++ chunk)
      · intro more
        rw [List.append_assoc, hf, ← List.append_assoc, h.feed hG, Fed.after_after]
        rfl
  exact hfold ⟨[], s, []⟩ [] find_nil fun _ => rfl

end Lazy

end Finder

end KlipperMcu.Lib
