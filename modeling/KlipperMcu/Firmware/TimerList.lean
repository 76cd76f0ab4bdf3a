import KlipperMcu.Firmware.Sched
import Mathlib.Tactic.Common

/-!
# The shape of the timer list

`Shape m l` says that the timer list of `m` is `l` followed by the sentinel. The lemmas say what
each function of sched.c does to `l`, whatever the waketimes are.
-/

namespace KlipperMcu.Sched

open Lib

/-- The list reached from `timer_list` is `l` and then the sentinel. -/
structure Shape (m : Mem) (l : List TimerId) : Prop where
  seg : Seg m.next (some m.timerList) (l ++ [.sentinel]) none
  allocated : ∀ t ∈ l, t ∈ m.timers
  periodic : .periodic ∈ l
  deleted : .deleted ∉ l.tail
  lastInsert : m.lastInsert ∈ l
  lastInsert_ne : m.lastInsert ≠ .deleted

lemma Mem.deleted_mem (m : Mem) : .deleted ∈ m.timers := by simp [Mem.timers]

namespace Shape

variable {m : Mem} {l : List TimerId}

lemma nodup (h : Shape m l) : (l ++ [TimerId.sentinel]).Nodup := seg_nodup h.seg

lemma nodup_list (h : Shape m l) : l.Nodup := (List.nodup_append.mp h.nodup).1

lemma sentinel_notMem (h : Shape m l) : .sentinel ∉ l := by
  intro hs
  exact (List.nodup_append.mp h.nodup).2.2 _ hs _ (by simp) rfl

lemma head (h : Shape m l) : ∃ rest, l = m.timerList :: rest := by
  cases l with
  | nil => exact absurd h.periodic (by simp)
  | cons t rest =>
    have ht : m.timerList = t := Option.some.inj h.seg.1
    exact ⟨rest, by rw [ht]⟩

lemma length_lt (h : Shape m l) : l.length < m.timers.length := by
  have hsub : ∀ t ∈ l ++ [.sentinel], t ∈ m.timers := by
    intro t ht
    rcases List.mem_append.mp ht with ht | ht
    · exact h.allocated t ht
    · rw [List.mem_singleton.mp ht]
      simp [Mem.timers]
  have hle := seg_length_le h.seg hsub
  rw [List.length_append, List.length_singleton] at hle
  omega

end Shape

lemma split_before_last {α : Type*} {l a b : List α} {q z : α} (h : l ++ [z] = a ++ q :: b) :
    ∃ b', l = a ++ b' ∧ q :: b = b' ++ [z] := by
  have hne : q :: b ≠ [] := by simp
  refine ⟨(q :: b).dropLast, ?_, ?_⟩
  · have hd := congrArg List.dropLast h
    rwa [List.dropLast_append_of_ne_nil (by simp), List.dropLast_singleton, List.append_nil,
      List.dropLast_append_of_ne_nil hne] at hd
  · have hg := congrArg List.getLast? h
    rw [List.getLast?_append_of_ne_nil _ (by simp), List.getLast?_append_of_ne_nil _ hne,
      List.getLast?_singleton, List.getLast?_eq_some_getLast hne] at hg
    have hz : (q :: b).getLast hne = z := (Option.some.inj hg).symm
    rw [← hz]
    exact (List.dropLast_append_getLast hne).symm

lemma insertSearch_some {m : Mem} {w : UInt32} {fuel : Nat} {prev p q : TimerId}
    {rest : List TimerId} (h : Seg m.next (m.next prev) rest none)
    (hs : insertSearch m w fuel prev = some (p, q)) :
    ∃ a b c, rest = a ++ q :: b ∧ prev :: a = c ++ [p] ∧
      (∀ x ∈ a, timerIsBefore w (m.waketime x) = false) ∧
      timerIsBefore w (m.waketime q) = true := by
  induction fuel generalizing prev rest with
  | zero => simp [insertSearch] at hs
  | succ fuel ih =>
    rw [insertSearch] at hs
    cases rest with
    | nil =>
      rw [seg_nil] at h
      rw [h] at hs
      simp at hs
    | cons pos rest =>
      rw [h.1] at hs
      by_cases hb : timerIsBefore w (m.waketime pos) = true
      · simp only [hb, if_true, Option.some.injEq, Prod.mk.injEq] at hs
        obtain ⟨rfl, rfl⟩ := hs
        exact ⟨[], rest, [], rfl, rfl, by simp, hb⟩
      · simp only [hb] at hs
        obtain ⟨a, b, c, rfl, hc, ha, hq⟩ := ih h.2 hs
        refine ⟨pos :: a, b, prev :: c, rfl, by rw [hc]; rfl, ?_, hq⟩
        intro x hx
        rcases List.mem_cons.mp hx with rfl | hx
        · simpa using hb
        · exact ha x hx

lemma insertSearch_isSome {m : Mem} {w : UInt32} {fuel : Nat} {prev : TimerId}
    {rest : List TimerId} (h : Seg m.next (m.next prev) rest none) (hf : rest.length ≤ fuel)
    (hex : ∃ x ∈ rest, timerIsBefore w (m.waketime x) = true) :
    (insertSearch m w fuel prev).isSome = true := by
  induction fuel generalizing prev rest with
  | zero =>
    obtain ⟨x, hx, -⟩ := hex
    rw [List.length_eq_zero_iff.mp (by omega : rest.length = 0)] at hx
    simp at hx
  | succ fuel ih =>
    rw [insertSearch]
    cases rest with
    | nil => simp at hex
    | cons pos rest =>
      rw [h.1]
      by_cases hb : timerIsBefore w (m.waketime pos) = true
      · simp [hb]
      · simp only [hb]
        apply ih h.2 (by simpa using hf)
        obtain ⟨x, hx, hxb⟩ := hex
        rcases List.mem_cons.mp hx with rfl | hx
        · exact absurd hxb hb
        · exact ⟨x, hx, hxb⟩

/-- `insert_timer` from a listed timer `pos` links `t` behind `pos`, at the first later timer. -/
lemma insertTimer_listed {m m' : Mem} {w : UInt32} {pre rest : List TimerId} {pos t : TimerId}
    (h : Seg m.next (some m.timerList) (pre ++ pos :: rest ++ [.sentinel]) none)
    (ht : t ∉ pre ++ pos :: rest ++ [TimerId.sentinel])
    (hi : insertTimer m pos t w = .ok m') :
    ∃ a b next', rest = a ++ b ∧ m' = { m with next := next' } ∧
      Seg next' (some m.timerList) (pre ++ pos :: a ++ t :: b ++ [.sentinel]) none ∧
      (∀ x ∈ a, timerIsBefore w (m.waketime x) = false) ∧
      ∃ q, (b ++ [TimerId.sentinel]).head? = some q ∧ timerIsBefore w (m.waketime q) = true := by
  unfold insertTimer at hi
  split at hi
  · cases hi
  · rename_i p q hs
    have hseg : Seg m.next (m.next pos) (rest ++ [.sentinel]) none := by
      rw [List.append_assoc, List.cons_append] at h
      obtain ⟨r, -, -, hr⟩ := (seg_append _ _ _ _ _).mp h
      exact hr
    obtain ⟨a, b, c, hab, hc, ha, hq⟩ := insertSearch_some hseg hs
    obtain ⟨b', rfl, hqb⟩ := split_before_last hab
    cases hi
    have hlist : pre ++ pos :: (a ++ b') ++ [.sentinel] = pre ++ c ++ p :: q :: b := by
      calc pre ++ pos :: (a ++ b') ++ [.sentinel] =
          pre ++ (pos :: a) ++ (b' ++ [.sentinel]) := by simp
        _ = pre ++ c ++ p :: q :: b := by rw [hc, ← hqb]; simp
    refine ⟨a, b', _, rfl, rfl, ?_, ha, q, ?_, hq⟩
    · rw [hlist] at h ht
      have hins := seg_insert_after h ht
      have hlist' : pre ++ pos :: a ++ t :: b' ++ [.sentinel] = pre ++ c ++ p :: t :: q :: b := by
        calc pre ++ pos :: a ++ t :: b' ++ [.sentinel] =
            pre ++ (pos :: a) ++ t :: (b' ++ [.sentinel]) := by simp
          _ = pre ++ c ++ p :: t :: q :: b := by rw [hc, ← hqb]; simp
      rw [hlist']
      exact hins
    · rw [← hqb]
      rfl

lemma insertTimer_total {m : Mem} {w : UInt32} {rest : List TimerId} {pos : TimerId}
    (t : TimerId) (h : Seg m.next (m.next pos) (rest ++ [.sentinel]) none)
    (hlen : rest.length < m.timers.length)
    (hex : ∃ x ∈ rest ++ [.sentinel], timerIsBefore w (m.waketime x) = true) :
    ∃ m', insertTimer m pos t w = .ok m' := by
  have hf : (rest ++ [TimerId.sentinel]).length ≤ m.timers.length := by
    simpa using Nat.succ_le_of_lt hlen
  have hsome := insertSearch_isSome h hf hex
  obtain ⟨⟨p, q⟩, hpq⟩ := Option.isSome_iff_exists.mp hsome
  exact ⟨_, by unfold insertTimer; rw [hpq]⟩

/-- The place `a | b` that `insert_timer` finds for `w`: it comes after the last part of `a`,
which was searched, and before `b`. -/
def Slot (m : Mem) (w : UInt32) (a b : List TimerId) : Prop :=
  (∃ x p a₂, a = x ++ p :: a₂ ∧ ∀ y ∈ p :: a₂, timerIsBefore w (m.waketime y) = false) ∧
    ∃ q, (b ++ [TimerId.sentinel]).head? = some q ∧ timerIsBefore w (m.waketime q) = true

lemma mem_insert_iff {α : Type*} {a b : List α} {x t : α} :
    x ∈ a ++ t :: b ↔ x ∈ a ++ b ∨ x = t := by
  simp only [List.mem_append, List.mem_cons]
  tauto

lemma notMem_tail_insert {α : Type*} {x a₂ b : List α} {p t d : α} (htd : d ≠ t)
    (h : d ∉ ((x ++ p :: a₂) ++ b).tail) : d ∉ ((x ++ p :: a₂) ++ t :: b).tail := by
  cases x with
  | nil =>
    simp only [List.nil_append, List.cons_append, List.tail_cons, List.mem_append, not_or,
      List.mem_cons] at h ⊢
    exact ⟨h.1, htd, h.2⟩
  | cons y x =>
    simp only [List.cons_append, List.tail_cons, List.mem_append, List.mem_cons, not_or] at h ⊢
    exact ⟨⟨h.1.1, h.1.2.1, h.1.2.2⟩, htd, h.2⟩

/-- `insert_timer` finds a place for `t` when it starts at a listed timer that `w` is not before,
or at `t` itself while `t` still points at the head of the list. -/
lemma insertTimer_place {m m' : Mem} {w : UInt32} {l : List TimerId} {pos t : TimerId}
    (h : Seg m.next (some m.timerList) (l ++ [.sentinel]) none)
    (ht : t ∉ l ++ [TimerId.sentinel])
    (hpos : (pos ∈ l ∧ timerIsBefore w (m.waketime pos) = false) ∨
      (pos = t ∧ m.next t = some m.timerList ∧
        timerIsBefore w (m.waketime m.timerList) = false))
    (hi : insertTimer m pos t w = .ok m') :
    ∃ a b next', l = a ++ b ∧ m' = { m with next := next' } ∧
      Seg next' (some m.timerList) (a ++ t :: b ++ [.sentinel]) none ∧ Slot m w a b := by
  rcases hpos with ⟨hmem, hp⟩ | ⟨rfl, hnext, hp⟩
  · obtain ⟨pre, rest, rfl⟩ := List.append_of_mem hmem
    obtain ⟨a, b, next', rfl, rfl, hseg, hle, hq⟩ := insertTimer_listed h ht hi
    refine ⟨pre ++ pos :: a, b, next', by simp, rfl, hseg, ⟨pre, pos, a, rfl, ?_⟩, hq⟩
    intro y hy
    rcases List.mem_cons.mp hy with rfl | hy
    · exact hp
    · exact hle y hy
  · unfold insertTimer at hi
    split at hi
    · cases hi
    · rename_i p q hs
      obtain ⟨a, b, c, hab, hc, ha, hq⟩ := insertSearch_some (hnext ▸ h) hs
      obtain ⟨b', rfl, hqb⟩ := split_before_last hab
      cases a with
      | nil =>
        rw [hab, List.nil_append] at h
        rw [Option.some.inj h.1, hq] at hp
        cases hp
      | cons y a =>
        obtain ⟨c', rfl⟩ : ∃ c', c = pos :: c' := by
          cases c with
          | nil => simp at hc
          | cons z c' =>
            rw [List.cons_append] at hc
            exact ⟨c', by rw [(List.cons.inj hc).1]⟩
        rw [List.cons_append] at hc
        have hya : y :: a = c' ++ [p] := (List.cons.inj hc).2
        have hlist : (y :: a ++ b') ++ [.sentinel] = c' ++ p :: q :: b := by
          rw [hab, hya, List.append_assoc, List.singleton_append]
        cases hi
        refine ⟨y :: a, b', _, rfl, rfl, ?_, ⟨[], y, a, rfl, ha⟩, q, by rw [← hqb]; rfl, hq⟩
        rw [hlist] at h ht
        have hins := seg_insert_after h ht
        have hlist' : y :: a ++ pos :: b' ++ [.sentinel] = c' ++ p :: pos :: q :: b := by
          rw [hya, List.append_assoc, List.append_assoc, List.singleton_append, List.cons_append,
            ← hqb]
        rw [hlist']
        exact hins

/-! ## sched_del_timer -/

lemma delSearch_spec {m : Mem} {fuel : Nat} {p : Option TimerId} {pre rest : List TimerId}
    {pos del : TimerId} (h : Seg m.next p (pre ++ pos :: rest) none) (hf : rest.length < fuel) :
    ∃ next', delSearch m del fuel pos = .ok { m with next := next' } ∧
      Seg next' p (pre ++ pos :: rest.filter (· ≠ del)) none := by
  induction rest generalizing pre pos fuel with
  | nil =>
    obtain ⟨r, -, -, hr⟩ := (seg_append _ _ _ _ _).mp h
    obtain ⟨fuel, rfl⟩ : ∃ k, fuel = k + 1 := ⟨fuel - 1, by omega⟩
    refine ⟨m.next, ?_, h⟩
    rw [seg_nil] at hr
    rw [delSearch, hr]
  | cons q rest ih =>
    obtain ⟨r, -, -, hq, -⟩ := (seg_append _ _ _ _ _).mp h
    obtain ⟨fuel, rfl⟩ : ∃ k, fuel = k + 1 := ⟨fuel - 1, by omega⟩
    rw [delSearch, hq]
    by_cases hqd : q = del
    · subst hqd
      have hnd := (List.nodup_append.mp (seg_nodup h)).2.1
      have hnot : q ∉ rest := (List.nodup_cons.mp (List.nodup_cons.mp hnd).2).1
      refine ⟨Function.update m.next pos (m.next q), by simp, ?_⟩
      have hfilter : (q :: rest).filter (· ≠ q) = rest := by
        rw [List.filter_cons_of_neg (by simp), List.filter_eq_self]
        intro x hx
        exact decide_eq_true (fun he => hnot (he ▸ hx))
      rw [hfilter]
      exact seg_remove_after h
    · have hpre : Seg m.next p ((pre ++ [pos]) ++ q :: rest) none := by
        rwa [List.append_assoc]
      have hf' : rest.length < fuel := by simpa using hf
      obtain ⟨next', hdel, hseg⟩ := ih hpre hf'
      refine ⟨next', by simpa [hqd] using hdel, ?_⟩
      rw [List.filter_cons_of_pos (by simpa using hqd)]
      rwa [List.append_assoc] at hseg

lemma filter_head {l : List TimerId} {t del : TimerId} (h : t ≠ del) :
    (t :: l).filter (· ≠ del) = t :: l.filter (· ≠ del) :=
  List.filter_cons_of_pos (by simpa using h)

lemma IsCaller.ne_periodic {t : TimerId} (h : t.IsCaller) : TimerId.periodic ≠ t := by
  rintro rfl
  exact h

lemma IsCaller.ne_deleted {t : TimerId} (h : t.IsCaller) : TimerId.deleted ≠ t := by
  rintro rfl
  exact h

lemma IsCaller.ne_sentinel {t : TimerId} (h : t.IsCaller) : TimerId.sentinel ≠ t := by
  rintro rfl
  exact h

lemma schedDelTimer_rest {m : Mem} {l : List TimerId} {del : TimerId} (h : Shape m l)
    (hc : del.IsCaller) (hne : m.timerList ≠ del) :
    ∃ next' last', schedDelTimer m del = .ok { m with next := next', lastInsert := last' } ∧
      Shape { m with next := next', lastInsert := last' } (l.filter (· ≠ del)) := by
  obtain ⟨rest, hl⟩ := h.head
  have hseg := h.seg
  rw [hl, List.cons_append] at hseg
  have hlen : (rest ++ [TimerId.sentinel]).length < m.timers.length := by
    have hlt := h.length_lt
    rw [hl] at hlt
    simpa using hlt
  rw [← List.nil_append (m.timerList :: _)] at hseg
  obtain ⟨next', hdel, hseg'⟩ := @delSearch_spec m _ _ _ _ _ del hseg hlen
  refine ⟨next', if m.lastInsert = del then .periodic else m.lastInsert, ?_, ?_, ?_, ?_, ?_, ?_, ?_⟩
  · unfold schedDelTimer unlinkTimer
    rw [if_neg hne, hdel]
  · rw [List.nil_append, List.filter_append] at hseg'
    have hsent : [TimerId.sentinel].filter (· ≠ del) = [.sentinel] :=
      List.filter_cons_of_pos (by simpa using IsCaller.ne_sentinel hc)
    rw [hl, filter_head hne]
    rwa [hsent] at hseg'
  · intro t ht
    exact h.allocated t (List.mem_filter.mp ht).1
  · exact List.mem_filter.mpr ⟨h.periodic, by simpa using IsCaller.ne_periodic hc⟩
  · rw [hl, filter_head hne]
    intro hd
    have hdel' := h.deleted
    rw [hl] at hdel'
    exact hdel' (List.mem_filter.mp hd).1
  · by_cases hli : m.lastInsert = del
    · simp only [hli, if_true]
      exact List.mem_filter.mpr ⟨h.periodic, by simpa using IsCaller.ne_periodic hc⟩
    · simp only [hli, if_false]
      exact List.mem_filter.mpr ⟨h.lastInsert, by simpa using hli⟩
  · dsimp only
    split
    · simp
    · exact h.lastInsert_ne

lemma schedDelTimer_head {m : Mem} {rest : List TimerId} {del : TimerId}
    (h : Shape m (del :: rest)) (hc : del.IsCaller) :
    ∃ next' last', schedDelTimer m del = .ok { m with
        waketime := Function.update m.waketime .deleted (m.waketime del)
        next := next'
        timerList := .deleted
        lastInsert := last' } ∧
      Shape { m with
        waketime := Function.update m.waketime .deleted (m.waketime del)
        next := next'
        timerList := .deleted
        lastInsert := last' } (.deleted :: rest) := by
  have htl : m.timerList = del := Option.some.inj h.seg.1
  have hper : .periodic ∈ rest := by
    rcases List.mem_cons.mp h.periodic with hp | hp
    · exact absurd hp (IsCaller.ne_periodic hc)
    · exact hp
  have hnot : .deleted ∉ rest ++ [TimerId.sentinel] := by
    have hd := h.deleted
    simpa using hd
  refine ⟨Function.update m.next .deleted (m.next del),
    if m.lastInsert = del then .periodic else m.lastInsert, ?_, ?_, ?_, ?_, ?_, ?_, ?_⟩
  · unfold schedDelTimer unlinkTimer
    rw [if_pos htl]
  · exact seg_push_front h.seg.2 hnot
  · intro t ht
    rcases List.mem_cons.mp ht with rfl | ht
    · exact m.deleted_mem
    · exact h.allocated t (by simp [ht])
  · simp [hper]
  · exact h.deleted
  · by_cases hli : m.lastInsert = del
    · simp [hli, hper]
    · simp only [hli, if_false]
      rcases List.mem_cons.mp h.lastInsert with hm | hm
      · exact absurd hm hli
      · simp [hm]
  · dsimp only
    split
    · simp
    · exact h.lastInsert_ne

/-! ## sched_add_timer -/

lemma Shape.insert {m m' : Mem} {w : UInt32} {l : List TimerId} {pos t : TimerId}
    (h : Shape m l) (hc : t.IsCaller) (ha : t ∈ m.timers) (ht : t ∉ l) (hm : pos ∈ l)
    (hpos : timerIsBefore w (m.waketime pos) = false) (hi : insertTimer m pos t w = .ok m') :
    ∃ a b next', l = a ++ b ∧ m' = { m with next := next' } ∧ Shape m' (a ++ t :: b) ∧
      Slot m w a b := by
  have hts : t ∉ l ++ [TimerId.sentinel] := by
    rw [List.mem_append, not_or, List.mem_singleton]
    exact ⟨ht, (IsCaller.ne_sentinel hc).symm⟩
  obtain ⟨a, b, next', rfl, rfl, hseg, hslot⟩ :=
    insertTimer_place h.seg hts (Or.inl ⟨hm, hpos⟩) hi
  refine ⟨a, b, next', rfl, rfl, ⟨hseg, ?_, mem_insert_iff.mpr (Or.inl h.periodic), ?_,
    mem_insert_iff.mpr (Or.inl h.lastInsert), h.lastInsert_ne⟩, hslot⟩
  · intro x hx
    rcases mem_insert_iff.mp hx with hx | rfl
    · exact h.allocated x hx
    · exact ha
  · obtain ⟨⟨x, p, a₂, rfl, -⟩, -⟩ := hslot
    exact notMem_tail_insert (IsCaller.ne_deleted hc) h.deleted

lemma Shape.of_noteLate {m : Mem} {l : List TimerId} (h : Shape m l) (w cur : UInt32) (tag : UInt8) :
    Shape (noteLate m w cur tag) l :=
  ⟨h.seg, h.allocated, h.periodic, h.deleted, h.lastInsert, h.lastInsert_ne⟩

lemma Shape.filter_deleted {m : Mem} {l : List TimerId} (h : Shape m l) :
    l.filter (· ≠ .deleted) = if m.timerList = .deleted then l.tail else l := by
  obtain ⟨rest, hl⟩ := h.head
  have hd := h.deleted
  rw [hl, List.tail_cons] at hd
  have hrest : rest.filter (· ≠ .deleted) = rest := by
    rw [List.filter_eq_self]
    intro x hx
    exact decide_eq_true (fun he => hd (he ▸ hx))
  rw [hl]
  by_cases ht : m.timerList = .deleted
  · rw [if_pos ht, ht, List.filter_cons_of_neg (by simp), hrest, List.tail_cons]
  · rw [if_neg ht, filter_head ht, hrest]

lemma Shape.of_linkAtHead {m : Mem} {l : List TimerId} {add : TimerId} (h : Shape m l)
    (hc : add.IsCaller) (ha : add ∈ m.timers) (hn : add ∉ l) (w : UInt32) :
    Shape (linkAtHead m add w) (.deleted :: add :: l.filter (· ≠ .deleted)) := by
  have hdn : TimerId.deleted ∉ add :: (l.filter (· ≠ .deleted) ++ [.sentinel]) := by
    simp [IsCaller.ne_deleted hc]
  have han : add ∉ l.filter (· ≠ .deleted) ++ [.sentinel] := by
    rw [List.mem_append, not_or, List.mem_singleton]
    exact ⟨fun hm => hn (List.mem_filter.mp hm).1, (IsCaller.ne_sentinel hc).symm⟩
  have hrest : Seg m.next (if m.timerList = .deleted then m.next .deleted else some m.timerList)
      (l.filter (· ≠ .deleted) ++ [.sentinel]) none := by
    rw [h.filter_deleted]
    obtain ⟨rest, hl⟩ := h.head
    have hseg := h.seg
    by_cases ht : m.timerList = .deleted
    · rw [if_pos ht, if_pos ht, hl, List.tail_cons]
      rw [hl, ht] at hseg
      exact hseg.2
    · rw [if_neg ht, if_neg ht]
      exact hseg
  refine ⟨?_, ?_, ?_, ?_, ?_, ?_⟩
  · refine ⟨rfl, ?_⟩
    have hseg := seg_push_front hrest han
    rw [← seg_update_of_notMem hdn (some add)] at hseg
    have hnext : (linkAtHead m add w).next .deleted = some add := by
      simp [linkAtHead, timerKick]
    rw [hnext]
    exact hseg
  · intro t ht
    simp only [List.mem_cons, List.mem_filter] at ht
    rcases ht with rfl | rfl | ht
    · exact m.deleted_mem
    · exact ha
    · exact h.allocated t ht.1
  · simp [h.periodic]
  · simp [IsCaller.ne_deleted hc]
  · simp only [List.mem_cons, List.mem_filter]
    exact Or.inr (Or.inr ⟨h.lastInsert, decide_eq_true h.lastInsert_ne⟩)
  · exact h.lastInsert_ne

lemma schedAddTimer_cases {m m' : Mem} {l : List TimerId} {cur : UInt32} {add : TimerId}
    {tag : UInt8} (h : Shape m l) (hc : add.IsCaller) (ha : add ∈ m.timers) (hn : add ∉ l)
    (hok : schedAddTimer m cur add tag = .ok m') :
    (timerIsBefore (m.waketime add) (m.waketime m.timerList) = true ∧
      (m' = linkAtHead m add (m.waketime add) ∨
        m' = linkAtHead (noteLate m (m.waketime add) cur tag) add (m.waketime add)) ∧
      Shape m' (.deleted :: add :: l.filter (· ≠ .deleted))) ∨
    (timerIsBefore (m.waketime add) (m.waketime m.timerList) = false ∧
      ∃ a b next', l = a ++ b ∧ m' = { m with next := next' } ∧ Shape m' (a ++ add :: b) ∧
        Slot m (m.waketime add) a b) := by
  obtain ⟨rest, hl⟩ := h.head
  unfold schedAddTimer at hok
  by_cases hb : timerIsBefore (m.waketime add) (m.waketime m.timerList) = true
  · left
    simp only [hb, if_true] at hok
    refine ⟨hb, ?_⟩
    split at hok
    · split at hok
      · cases hok
      · cases hok
        exact ⟨Or.inr rfl, (h.of_noteLate (m.waketime add) cur tag).of_linkAtHead hc ha hn _⟩
    · cases hok
      exact ⟨Or.inl rfl, h.of_linkAtHead hc ha hn _⟩
  · right
    have hbf : timerIsBefore (m.waketime add) (m.waketime m.timerList) = false := by simpa using hb
    simp only [hb] at hok
    rw [hl] at h hn ⊢
    exact ⟨hbf, h.insert hc ha hn (by simp) hbf hok⟩

lemma schedAddTimer_shutdown {m m' : Mem} {cur : UInt32} {add : TimerId} {tag : UInt8}
    {reason : Reason} (h : schedAddTimer m cur add tag = .error (.shutdown m' reason)) :
    m' = noteLate m (m.waketime add) cur tag := by
  simp only [schedAddTimer] at h
  split at h
  · split at h
    · split at h
      · cases h
        rfl
      · cases h
    · cases h
  · unfold insertTimer at h
    split at h <;> cases h

/-! ## sched_timer_reset -/

lemma Shape.congr {m m' : Mem} {l : List TimerId} (h : Shape m l) (hn : m'.next = m.next)
    (ht : m'.timerList = m.timerList) (hli : m'.lastInsert = m.lastInsert)
    (hu : m'.users = m.users) : Shape m' l := by
  refine ⟨?_, ?_, h.periodic, h.deleted, ?_, ?_⟩
  · rw [hn, ht]
    exact h.seg
  · intro t hm
    have ha := h.allocated t hm
    unfold Mem.timers at ha ⊢
    rwa [hu]
  · rw [hli]
    exact h.lastInsert
  · rw [hli]
    exact h.lastInsert_ne

lemma Shape.of_schedTimerReset {m : Mem} {l : List TimerId} (h : Shape m l) :
    Shape (schedTimerReset m) [.deleted, .periodic] := by
  have hsn : m.next .sentinel = none := by
    obtain ⟨r, -, -, hr⟩ := (seg_append _ _ _ _ _).mp h.seg
    exact hr
  refine ⟨?_, ?_, by simp, by simp, by simp [schedTimerReset, timerKick], by
    simp [schedTimerReset, timerKick]⟩
  · simp [schedTimerReset, timerKick, hsn]
  · intro t ht
    simp only [List.mem_cons, List.not_mem_nil, or_false] at ht
    rcases ht with rfl | rfl
    · exact Mem.deleted_mem _
    · simp [Mem.timers]

lemma Shape.of_runShutdown {m : Mem} {l : List TimerId} (h : Shape m l) (reason : Reason) :
    Shape (runShutdown m reason) [.deleted, .periodic] :=
  Shape.of_schedTimerReset (Shape.congr h rfl rfl rfl rfl)

/-! ## sched_timer_dispatch -/

lemma delTimers_spec {m : Mem} {l dels : List TimerId} (h : Shape m l)
    (hd : ∀ d ∈ dels, d.IsCaller ∧ d ≠ m.timerList) :
    ∃ next' last', delTimers m dels = .ok { m with next := next', lastInsert := last' } ∧
      Shape { m with next := next', lastInsert := last' } (l.filter (· ∉ dels)) := by
  induction dels generalizing m l with
  | nil =>
    refine ⟨m.next, m.lastInsert, rfl, ?_⟩
    simpa using h
  | cons d dels ih =>
    obtain ⟨hc, hne⟩ := hd d (by simp)
    obtain ⟨next₁, last₁, hdel, hshape⟩ := schedDelTimer_rest h hc hne.symm
    obtain ⟨next', last', hdels, hshape'⟩ := ih hshape (fun x hx => hd x (by simp [hx]))
    refine ⟨next', last', ?_, ?_⟩
    · rw [delTimers, hdel]
      exact hdels
    · rw [List.filter_filter] at hshape'
      have hf : l.filter (fun x => decide (x ∉ dels) && decide (x ≠ d)) =
          l.filter (· ∉ d :: dels) := by
        apply List.filter_congr
        intro x _
        simp only [List.mem_cons, not_or, Bool.decide_and]
        exact Bool.and_comm _ _
      rwa [hf] at hshape'

lemma Shape.head_ne_nil {m : Mem} {t : TimerId} {rest : List TimerId} (h : Shape m (t :: rest))
    (ht : t ≠ .periodic) : ∃ n rest', rest = n :: rest' := by
  cases rest with
  | nil => exact absurd (List.mem_singleton.mp h.periodic).symm ht
  | cons n rest' => exact ⟨n, rest', rfl⟩

lemma updateTimerList_done {m : Mem} {t : TimerId} {rest : List TimerId}
    (h : Shape m (t :: rest)) (ht : t ≠ .periodic) :
    ∃ n last', rest.head? = some n ∧ updateTimerList m t .done =
        .ok ({ m with timerList := n, lastInsert := last' }, m.waketime n) ∧
      Shape { m with timerList := n, lastInsert := last' } rest := by
  obtain ⟨n, rest', rfl⟩ := h.head_ne_nil ht
  have hnext : m.next t = some n := h.seg.2.1
  have hper : .periodic ∈ n :: rest' := (List.mem_cons.mp h.periodic).resolve_left ht.symm
  have hdel : .deleted ∉ n :: rest' := h.deleted
  refine ⟨n, if m.lastInsert = t then n else m.lastInsert, rfl, ?_, ?_, ?_, hper, ?_, ?_, ?_⟩
  · simp only [updateTimerList, hnext]
  · rw [← hnext]
    exact h.seg.2
  · exact fun x hx => h.allocated x (List.mem_cons_of_mem t hx)
  · exact fun hm => hdel (List.mem_cons_of_mem n hm)
  · dsimp only
    split
    · simp
    · exact (List.mem_cons.mp h.lastInsert).resolve_left ‹_›
  · dsimp only
    split
    · rintro rfl
      exact hdel (by simp)
    · exact h.lastInsert_ne

lemma insertStart_cases {m : Mem} {t n : TimerId} {rest : List TimerId} (h : Shape m (t :: rest))
    (hn : (rest ++ [TimerId.sentinel]).head? = some n) (hnext : m.next t = some n)
    (hb : timerIsBefore (m.waketime t) (m.waketime n) = false) :
    (insertStart m n (m.waketime t) ∈ rest ∧
      timerIsBefore (m.waketime t) (m.waketime (insertStart m n (m.waketime t))) = false) ∨
    (insertStart m n (m.waketime t) = t ∧ m.next t = some n ∧
      timerIsBefore (m.waketime t) (m.waketime n) = false) := by
  unfold insertStart
  by_cases hl : timerIsBefore (m.waketime t) (m.waketime m.lastInsert) = true
  · rw [if_pos hl]
    left
    refine ⟨?_, hb⟩
    cases rest with
    | nil =>
      rw [List.mem_singleton.mp h.lastInsert] at hl
      simp at hl
    | cons y r =>
      rw [← Option.some.inj hn]
      simp
  · rw [if_neg hl]
    rcases List.mem_cons.mp h.lastInsert with hlt | hlm
    · exact Or.inr ⟨hlt, hnext, hb⟩
    · exact Or.inl ⟨hlm, by simpa using hl⟩

lemma updateTimerList_ne_shutdown {m m' : Mem} {t : TimerId} {reason : Reason} (res : SchedResult) :
    updateTimerList m t res ≠ .error (.shutdown m' reason) := by
  intro h
  simp only [updateTimerList] at h
  split at h
  · cases h
  · split at h
    · cases h
    · split at h
      · cases h
      · unfold insertTimer at h
        split at h
        · rename_i hins
          split at hins
          · cases hins
            cases h
          · cases hins
        · cases h

lemma updateTimerList_reschedule {m m' : Mem} {t : TimerId} {rest : List TimerId} {w : UInt32}
    (h : Shape m (t :: rest)) (ht : t.IsCaller ∨ t = .periodic)
    (hok : updateTimerList m t .reschedule = .ok (m', w)) :
    (m' = m ∧ w = m.waketime t ∧ ∃ n, (rest ++ [TimerId.sentinel]).head? = some n ∧
      timerIsBefore (m.waketime t) (m.waketime n) = true) ∨
    (∃ a b n next', rest = a ++ b ∧ rest.head? = some n ∧ w = m.waketime n ∧
      m' = { m with timerList := n, next := next', lastInsert := t } ∧
      Shape m' (a ++ t :: b) ∧ Slot m (m.waketime t) a b) := by
  have htd : .deleted ≠ t := by
    rcases ht with hc | rfl
    · exact IsCaller.ne_deleted hc
    · simp
  have hts : t ∉ rest ++ [TimerId.sentinel] := (List.nodup_cons.mp h.nodup).1
  obtain ⟨n, hn⟩ : ∃ n, (rest ++ [TimerId.sentinel]).head? = some n := by
    cases rest with
    | nil => exact ⟨.sentinel, rfl⟩
    | cons n rest' => exact ⟨n, rfl⟩
  have hseg : Seg m.next (m.next t) (rest ++ [.sentinel]) none := h.seg.2
  have hnext : m.next t = some n := by
    cases hr : rest ++ [TimerId.sentinel] with
    | nil => simp at hr
    | cons y r =>
      rw [hr] at hseg hn
      rw [hseg.1, ← hn]
      rfl
  simp only [updateTimerList, hnext] at hok
  by_cases hb : timerIsBefore (m.waketime t) (m.waketime n) = true
  · left
    simp only [hb, if_true, Except.ok.injEq, Prod.mk.injEq] at hok
    exact ⟨hok.1.symm, hok.2.symm, n, hn, hb⟩
  · right
    have hbf : timerIsBefore (m.waketime t) (m.waketime n) = false := by simpa using hb
    rw [if_neg hb] at hok
    split at hok
    · cases hok
    · rename_i m₁ hins
      cases hok
      have hpos := insertStart_cases h hn hnext hbf
      obtain ⟨a, b, next', rfl, rfl, hseg', hslot⟩ :=
        insertTimer_place (m := { m with timerList := n }) (hnext ▸ hseg) hts hpos hins
      have hdel : .deleted ∉ a ++ b := h.deleted
      have hmem : ∀ x, x ∈ t :: (a ++ b) ↔ x ∈ a ++ t :: b := by
        intro x
        rw [mem_insert_iff, List.mem_cons]
        exact or_comm
      refine ⟨a, b, n, next', rfl, ?_, rfl, rfl, ⟨hseg', ?_, (hmem _).mp h.periodic, ?_, by simp, ?_⟩,
        hslot⟩
      · obtain ⟨⟨x, p, a₂, rfl, -⟩, -⟩ := hslot
        cases x with
        | nil => exact hn
        | cons y x => exact hn
      · exact fun x hx => h.allocated x ((hmem x).mpr hx)
      · intro hx
        rcases mem_insert_iff.mp (List.mem_of_mem_tail hx) with hx | hx
        · exact hdel hx
        · exact htd hx
      · exact htd.symm

end KlipperMcu.Sched
