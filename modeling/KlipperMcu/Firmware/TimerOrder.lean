import KlipperMcu.Firmware.TimerList

/-!
# The timer list in wrap-around waketime order

While the waketimes of the listed timers stay within `2 ^ 30` ticks of the current time, the
functions of sched.c keep the list sorted, find a place for every timer and never run past the
sentinel.
-/

namespace KlipperMcu.Sched

open Lib

/-- The list is sorted and its waketimes are close to `now`. The sentinel is half a turn after
the periodic timer. -/
structure Ordered (m : Mem) (now : UInt32) (l : List TimerId) : Prop where
  shape : Shape m l
  sorted : l.Pairwise fun x y => timerIsBefore (m.waketime y) (m.waketime x) = false
  within : ∀ t ∈ l, Within now (m.waketime t)
  sentinel : m.waketime .sentinel = m.waketime .periodic + 0x80000000

section Order

variable {now w w₁ w₂ : UInt32}

lemma before_trans_not (hw : Within now w) (h₁ : Within now w₁) (h₂ : Within now w₂)
    (h : timerIsBefore w₂ w₁ = false) (hb : timerIsBefore w w₂ = false) :
    timerIsBefore w w₁ = false := by
  rw [not_wrapBefore_iff_offset hw h₁]
  rw [not_wrapBefore_iff_offset h₂ h₁] at h
  rw [not_wrapBefore_iff_offset hw h₂] at hb
  omega

lemma not_before_of_before (hw : Within now w) (h₁ : Within now w₁)
    (hb : timerIsBefore w w₁ = true) : timerIsBefore w₁ w = false := by
  rw [not_wrapBefore_iff_offset h₁ hw]
  rw [wrapBefore_iff_offset hw h₁] at hb
  omega

lemma not_before_of_before_le (hw : Within now w) (h₁ : Within now w₁) (h₂ : Within now w₂)
    (hb : timerIsBefore w w₁ = true) (h : timerIsBefore w₂ w₁ = false) :
    timerIsBefore w₂ w = false := by
  rw [not_wrapBefore_iff_offset h₂ hw]
  rw [wrapBefore_iff_offset hw h₁] at hb
  rw [not_wrapBefore_iff_offset h₂ h₁] at h
  omega

end Order

variable {m : Mem} {now w : UInt32}

lemma Slot.bounds {a b : List TimerId} (hs : Slot m w a b)
    (hsorted : (a ++ b).Pairwise fun x y => timerIsBefore (m.waketime y) (m.waketime x) = false)
    (hwithin : ∀ t ∈ a ++ b, Within now (m.waketime t)) (hw : Within now w) :
    (∀ x ∈ a, timerIsBefore w (m.waketime x) = false) ∧
      ∀ y ∈ b, timerIsBefore (m.waketime y) w = false := by
  obtain ⟨⟨x, p, a₂, rfl, hle⟩, q, hq, hb⟩ := hs
  obtain ⟨hsa, hsb, -⟩ := List.pairwise_append.mp hsorted
  refine ⟨?_, ?_⟩
  · intro z hz
    rcases List.mem_append.mp hz with hzx | hzp
    · have hzp := (List.pairwise_append.mp hsa).2.2 z hzx p (by simp)
      exact before_trans_not hw (hwithin z (by simp [hzx])) (hwithin p (by simp)) hzp
        (hle p (by simp))
    · exact hle z hzp
  · intro y hy
    cases b with
    | nil => simp at hy
    | cons z b =>
      have hzq : z = q := Option.some.inj hq
      subst hzq
      rcases List.mem_cons.mp hy with rfl | hyb
      · exact not_before_of_before hw (hwithin y (by simp)) hb
      · exact not_before_of_before_le hw (hwithin z (by simp)) (hwithin y (by simp [hyb])) hb
          ((List.pairwise_cons.mp hsb).1 y hyb)

lemma Slot.sorted {a b : List TimerId} {t : TimerId} (hs : Slot m (m.waketime t) a b)
    (hsorted : (a ++ b).Pairwise fun x y => timerIsBefore (m.waketime y) (m.waketime x) = false)
    (hwithin : ∀ x ∈ a ++ b, Within now (m.waketime x)) (hw : Within now (m.waketime t)) :
    (a ++ t :: b).Pairwise fun x y => timerIsBefore (m.waketime y) (m.waketime x) = false := by
  obtain ⟨hlo, hhi⟩ := hs.bounds hsorted hwithin hw
  obtain ⟨hsa, hsb, hab⟩ := List.pairwise_append.mp hsorted
  refine List.pairwise_append.mpr ⟨hsa, List.pairwise_cons.mpr ⟨hhi, hsb⟩, ?_⟩
  intro x hx y hy
  rcases List.mem_cons.mp hy with rfl | hy
  · exact hlo x hx
  · exact hab x hx y hy

lemma exists_after {pre rest : List TimerId} {pos : TimerId} {p : UInt32}
    (hsorted : (pre ++ pos :: rest).Pairwise
      fun x y => timerIsBefore (m.waketime y) (m.waketime x) = false)
    (hwithin : ∀ x ∈ pre ++ pos :: rest, Within now (m.waketime x)) (hw : Within now w)
    (hpos : timerIsBefore w (m.waketime pos) = false)
    (hsent : m.waketime .sentinel = p + 0x80000000) (hp : Within now p)
    (hper : timerIsBefore w p = false ∨ ∃ x ∈ pre ++ pos :: rest, m.waketime x = p) :
    ∃ x ∈ rest ++ [TimerId.sentinel], timerIsBefore w (m.waketime x) = true := by
  have hlast : timerIsBefore w p = false →
      ∃ x ∈ rest ++ [TimerId.sentinel], timerIsBefore w (m.waketime x) = true := by
    intro hwp
    refine ⟨.sentinel, by simp, ?_⟩
    rw [hsent]
    exact wrapBefore_half_turn hwp
  rcases hper with hwp | ⟨x, hx, rfl⟩
  · exact hlast hwp
  · by_cases hwx : timerIsBefore w (m.waketime x) = true
    · refine ⟨x, ?_, hwx⟩
      rcases List.mem_append.mp hx with hxp | hxr
      · have hxpos := (List.pairwise_append.mp hsorted).2.2 x hxp pos (by simp)
        have hnot := before_trans_not hw hp (hwithin pos (by simp)) hxpos hpos
        rw [hwx] at hnot
        cases hnot
      · rcases List.mem_cons.mp hxr with rfl | hxr
        · rw [hwx] at hpos
          cases hpos
        · simp [hxr]
    · exact hlast (by simpa using hwx)

namespace Ordered

variable {l : List TimerId}

lemma head_earliest (h : Ordered m now l) :
    ∀ t ∈ l, timerIsBefore (m.waketime t) (m.waketime m.timerList) = false := by
  obtain ⟨rest, hl⟩ := h.shape.head
  have hs := h.sorted
  rw [hl] at hs ⊢
  intro t ht
  rcases List.mem_cons.mp ht with rfl | ht
  · exact wrapBefore_self _
  · exact (List.pairwise_cons.mp hs).1 t ht

lemma congr_waketime {m' : Mem} (h : Ordered m now l) (hshape : Shape m' l)
    (hw : ∀ t ∈ l, m'.waketime t = m.waketime t)
    (hs : m'.waketime .sentinel = m.waketime .sentinel) : Ordered m' now l := by
  refine ⟨hshape, ?_, ?_, ?_⟩
  · refine h.sorted.imp_of_mem ?_
    intro x y hx hy hxy
    rw [hw x hx, hw y hy]
    exact hxy
  · intro t ht
    rw [hw t ht]
    exact h.within t ht
  · rw [hs, hw _ h.shape.periodic]
    exact h.sentinel

lemma filter_rest (h : Ordered m now l) (f : TimerId → Bool) :
    (l.filter f).Pairwise (fun x y => timerIsBefore (m.waketime y) (m.waketime x) = false) ∧
      ∀ t ∈ l.filter f, Within now (m.waketime t) :=
  ⟨h.sorted.filter f, fun t ht => h.within t (List.mem_filter.mp ht).1⟩

end Ordered

lemma seg_suffix {next : TimerId → Option TimerId} {p : Option TimerId} {pre rest : List TimerId}
    {pos : TimerId} (h : Seg next p (pre ++ pos :: rest) none) : Seg next (next pos) rest none := by
  obtain ⟨r, -, -, hr⟩ := (seg_append _ _ _ _ _).mp h
  exact hr

/-- `sched_del_timer` keeps the order and changes nothing but the list. -/
theorem schedDelTimer_ordered {l : List TimerId} {del : TimerId} (h : Ordered m now l)
    (hc : del.IsCaller) :
    ∃ m' l', schedDelTimer m del = .ok m' ∧ Ordered m' now l' ∧
      (∀ t, t ≠ .deleted → (t ∈ l' ↔ t ∈ l ∧ t ≠ del)) ∧
      (∀ t, t ≠ .deleted → m'.waketime t = m.waketime t) ∧
      m'.waketime m'.timerList = m.waketime m.timerList ∧
      (m'.timerList = m.timerList ∧ m.timerList ≠ del ∨ m'.timerList = .deleted) ∧
      m'.users = m.users ∧ m'.kicked = m.kicked ∧ m'.shutdownStatus = m.shutdownStatus := by
  by_cases hne : m.timerList = del
  · obtain ⟨rest, hl⟩ := h.shape.head
    have hshape := h.shape
    rw [hl, hne] at hshape
    obtain ⟨next', last', hdel, hshape'⟩ := schedDelTimer_head hshape hc
    have hrest : ∀ t ∈ rest, t ≠ .deleted := by
      rintro t ht rfl
      exact hshape.deleted ht
    have hnot : del ∉ rest := (List.nodup_cons.mp hshape.nodup_list).1
    have hs := h.sorted
    have hw := h.within
    rw [hl, hne] at hs hw
    refine ⟨_, .deleted :: rest, hdel, ⟨hshape', ?_, ?_, ?_⟩, ?_, ?_, ?_, Or.inr rfl, rfl, rfl, rfl⟩
    · refine List.pairwise_cons.mpr ⟨?_, ?_⟩
      · intro t ht
        simp only [Function.update_self, Function.update_of_ne (hrest t ht)]
        exact (List.pairwise_cons.mp hs).1 t ht
      · refine (List.pairwise_cons.mp hs).2.imp_of_mem ?_
        intro x y hx hy hxy
        simp only [Function.update_of_ne (hrest x hx), Function.update_of_ne (hrest y hy)]
        exact hxy
    · intro t ht
      rcases List.mem_cons.mp ht with rfl | ht
      · simp only [Function.update_self]
        exact hw del (by simp)
      · simp only [Function.update_of_ne (hrest t ht)]
        exact hw t (by simp [ht])
    · simp only [ne_eq, reduceCtorEq, not_false_eq_true, Function.update_of_ne]
      exact h.sentinel
    · intro t ht
      rw [hl, hne, List.mem_cons, List.mem_cons]
      constructor
      · intro hm
        have hm' := hm.resolve_left ht
        exact ⟨Or.inr hm', fun he => hnot (he ▸ hm')⟩
      · rintro ⟨hm, htd⟩
        exact Or.inr (hm.resolve_left htd)
    · intro t ht
      exact Function.update_of_ne ht _ _
    · simp [hne]
  · obtain ⟨next', last', hdel, hshape'⟩ := schedDelTimer_rest h.shape hc hne
    obtain ⟨hs, hw⟩ := h.filter_rest (· ≠ del)
    refine ⟨_, _, hdel, ⟨hshape', hs, hw, h.sentinel⟩, ?_, fun _ _ => rfl, rfl,
      Or.inl ⟨rfl, hne⟩, rfl, rfl, rfl⟩
    intro t _
    rw [List.mem_filter, decide_eq_true_eq]

lemma linkAtHead_ordered {l : List TimerId} {add : TimerId} (h : Ordered m now l)
    (hc : add.IsCaller) (ha : add ∈ m.timers) (hn : add ∉ l) (hw : Within now (m.waketime add))
    (hb : timerIsBefore (m.waketime add) (m.waketime m.timerList) = true) :
    Ordered (linkAtHead m add (m.waketime add)) now (.deleted :: add :: l.filter (· ≠ .deleted)) ∧
      ∀ t, t ≠ .deleted → (linkAtHead m add (m.waketime add)).waketime t = m.waketime t := by
  have hwake : ∀ t, t ≠ .deleted →
      (linkAtHead m add (m.waketime add)).waketime t = m.waketime t :=
    fun t ht => Function.update_of_ne ht _ _
  have hdel : (linkAtHead m add (m.waketime add)).waketime .deleted = m.waketime add :=
    by simp [linkAtHead, timerKick]
  have hrest : ∀ t ∈ l.filter (· ≠ .deleted), t ∈ l ∧ t ≠ .deleted := by
    intro t ht
    simpa using ht
  have hlate : ∀ t ∈ l, timerIsBefore (m.waketime t) (m.waketime add) = false := by
    intro t ht
    obtain ⟨rest, hl⟩ := h.shape.head
    exact not_before_of_before_le hw (h.within _ (by rw [hl]; simp)) (h.within t ht) hb
      (h.head_earliest t ht)
  refine ⟨⟨h.shape.of_linkAtHead hc ha hn _, ?_, ?_, ?_⟩, hwake⟩
  · refine List.pairwise_cons.mpr ⟨?_, List.pairwise_cons.mpr ⟨?_, ?_⟩⟩
    · intro t ht
      rcases List.mem_cons.mp ht with rfl | ht
      · rw [hdel, hwake _ (IsCaller.ne_deleted hc).symm]
        exact wrapBefore_self _
      · rw [hdel, hwake t (hrest t ht).2]
        exact hlate t (hrest t ht).1
    · intro t ht
      rw [hwake t (hrest t ht).2, hwake _ (IsCaller.ne_deleted hc).symm]
      exact hlate t (hrest t ht).1
    · refine (h.filter_rest (· ≠ .deleted)).1.imp_of_mem ?_
      intro x y hx hy hxy
      rw [hwake x (hrest x hx).2, hwake y (hrest y hy).2]
      exact hxy
  · intro t ht
    rcases List.mem_cons.mp ht with rfl | ht
    · rw [hdel]
      exact hw
    · rcases List.mem_cons.mp ht with rfl | ht
      · rw [hwake _ (IsCaller.ne_deleted hc).symm]
        exact hw
      · rw [hwake t (hrest t ht).2]
        exact h.within t (hrest t ht).1
  · rw [hwake _ (by simp), hwake _ (by simp)]
    exact h.sentinel

lemma Ordered.of_noteLate {l : List TimerId} (h : Ordered m now l) (w cur : UInt32) (tag : UInt8) :
    Ordered (noteLate m w cur tag) now l :=
  ⟨h.shape.of_noteLate w cur tag, h.sorted, h.within, h.sentinel⟩

lemma mem_linkAtHead {l : List TimerId} {t add : TimerId} (ht : t ≠ .deleted) :
    t ∈ .deleted :: add :: l.filter (· ≠ .deleted) ↔ t ∈ l ∨ t = add := by
  simp only [List.mem_cons, ht, false_or, List.mem_filter, decide_eq_true_eq, ne_eq,
    not_false_eq_true, and_true]
  exact or_comm

/-- `sched_add_timer` of an unlisted timer either lists it in order or, when the request is late
and the firmware runs, shuts down before it touches the list. -/
theorem schedAddTimer_ordered {l : List TimerId} {add : TimerId} (cur : UInt32) (tag : UInt8)
    (h : Ordered m now l) (hc : add.IsCaller) (ha : add ∈ m.timers) (hn : add ∉ l)
    (hw : Within now (m.waketime add)) :
    (∃ m' l', schedAddTimer m cur add tag = .ok m' ∧ Ordered m' now l' ∧
      (∀ t, t ≠ .deleted → (t ∈ l' ↔ t ∈ l ∨ t = add)) ∧
      (∀ t, t ≠ .deleted → m'.waketime t = m.waketime t) ∧
      (m'.timerList = .deleted ∧ m'.kicked = true ∨
        m'.timerList = m.timerList ∧ m'.waketime = m.waketime ∧ m'.kicked = m.kicked) ∧
      m'.users = m.users ∧ m'.shutdownStatus = m.shutdownStatus) ∨
    (schedAddTimer m cur add tag =
        .error (.shutdown (noteLate m (m.waketime add) cur tag) .timerTooClose) ∧
      m.shutdownStatus = 0 ∧ timerIsBefore (m.waketime add) cur = true) := by
  unfold schedAddTimer
  by_cases hb : timerIsBefore (m.waketime add) (m.waketime m.timerList) = true
  · rw [if_pos hb]
    by_cases hlate : timerIsBefore (m.waketime add) cur = true
    · rw [if_pos hlate]
      by_cases hs : m.shutdownStatus = 0
      · rw [if_pos hs]
        exact Or.inr ⟨rfl, hs, hlate⟩
      · rw [if_neg hs]
        obtain ⟨ho, hwake⟩ := linkAtHead_ordered (h.of_noteLate (m.waketime add) cur tag) hc ha hn
          hw hb
        exact Or.inl ⟨_, _, rfl, ho, fun t ht => mem_linkAtHead ht, hwake, Or.inl ⟨rfl, rfl⟩, rfl,
          rfl⟩
    · rw [if_neg hlate]
      obtain ⟨ho, hwake⟩ := linkAtHead_ordered h hc ha hn hw hb
      exact Or.inl ⟨_, _, rfl, ho, fun t ht => mem_linkAtHead ht, hwake, Or.inl ⟨rfl, rfl⟩, rfl,
        rfl⟩
  · rw [if_neg hb]
    left
    have hbf : timerIsBefore (m.waketime add) (m.waketime m.timerList) = false := by simpa using hb
    obtain ⟨rest, hl⟩ := h.shape.head
    have hseg := h.shape.seg
    rw [hl, List.cons_append] at hseg
    have hlen := h.shape.length_lt
    rw [hl, List.length_cons] at hlen
    have hl' : l = [] ++ m.timerList :: rest := hl
    have hex := exists_after (hl' ▸ h.sorted) (hl' ▸ h.within) hw hbf h.sentinel
      (h.within _ h.shape.periodic) (Or.inr ⟨.periodic, hl' ▸ h.shape.periodic, rfl⟩)
    obtain ⟨m', hok⟩ := insertTimer_total add hseg.2 (by omega) hex
    obtain ⟨a, b, next', rfl, rfl, hshape, hslot⟩ :=
      h.shape.insert hc ha hn (by rw [hl]; simp) hbf hok
    refine ⟨_, a ++ add :: b, hok, ⟨hshape, hslot.sorted h.sorted h.within hw, ?_, h.sentinel⟩, ?_,
      fun _ _ => rfl, Or.inr ⟨rfl, rfl, rfl⟩, rfl, rfl⟩
    · intro t ht
      rcases mem_insert_iff.mp ht with ht | rfl
      · exact h.within t ht
      · exact hw
    · exact fun t _ => mem_insert_iff

/-- The list after `sched_timer_reset`. -/
theorem schedTimerReset_ordered {l : List TimerId} (h : Ordered m now l) :
    Ordered (schedTimerReset m) now [.deleted, .periodic] := by
  have hp := h.within _ h.shape.periodic
  refine ⟨h.shape.of_schedTimerReset, ?_, ?_, ?_⟩
  · simp [schedTimerReset, timerKick]
  · intro t ht
    simp only [List.mem_cons, List.not_mem_nil, or_false] at ht
    rcases ht with rfl | rfl
    · simpa [schedTimerReset, timerKick] using hp
    · simpa [schedTimerReset, timerKick] using hp
  · simpa [schedTimerReset, timerKick] using h.sentinel

lemma updateTimerList_of_insert {m' : Mem} {t n : TimerId} (hnext : m.next t = some n)
    (hb : timerIsBefore (m.waketime t) (m.waketime n) = false)
    (hins : insertTimer { m with timerList := n } (insertStart m n (m.waketime t)) t
      (m.waketime t) = .ok m') :
    updateTimerList m t .reschedule = .ok ({ m' with lastInsert := t }, m.waketime n) := by
  simp only [updateTimerList, hnext, hb, Bool.false_eq_true, if_false, hins]

/-- A rescheduled timer finds its place in the rest of the list. -/
theorem updateTimerList_total {t : TimerId} {rest : List TimerId} (h : Shape m (t :: rest))
    (hsorted : rest.Pairwise fun x y => timerIsBefore (m.waketime y) (m.waketime x) = false)
    (hwithin : ∀ x ∈ t :: rest, Within now (m.waketime x))
    (hsent : m.waketime .sentinel = m.waketime .periodic + 0x80000000) :
    ∃ r, updateTimerList m t .reschedule = .ok r := by
  have hseg : Seg m.next (m.next t) (rest ++ [.sentinel]) none := h.seg.2
  have hwt := hwithin t (by simp)
  have hp := hwithin _ h.periodic
  have hlen := h.length_lt
  rw [List.length_cons] at hlen
  obtain ⟨n, hn⟩ : ∃ n, m.next t = some n := by
    cases rest with
    | nil => exact ⟨.sentinel, hseg.1⟩
    | cons n rest' => exact ⟨n, hseg.1⟩
  have hn' : (rest ++ [TimerId.sentinel]).head? = some n := by
    cases rest with
    | nil => rw [← hn, hseg.1]; rfl
    | cons y rest' => rw [← hn, hseg.1]; rfl
  by_cases hb : timerIsBefore (m.waketime t) (m.waketime n) = true
  · exact ⟨_, by simp only [updateTimerList, hn, hb, if_true]; rfl⟩
  · have hbf : timerIsBefore (m.waketime t) (m.waketime n) = false := by simpa using hb
    have hafter : ∀ pre pos post, rest = pre ++ pos :: post →
        timerIsBefore (m.waketime t) (m.waketime pos) = false →
        ∃ x ∈ post ++ [TimerId.sentinel], timerIsBefore (m.waketime t) (m.waketime x) = true := by
      intro pre pos post hr hpos
      refine exists_after (hr ▸ hsorted) (fun x hx => hwithin x (by rw [hr]; simp [hx])) hwt hpos
        hsent hp ?_
      rcases List.mem_cons.mp h.periodic with hpt | hpr
      · exact Or.inl (by rw [hpt]; exact wrapBefore_self _)
      · exact Or.inr ⟨.periodic, hr ▸ hpr, rfl⟩
    have hins : ∃ m', insertTimer { m with timerList := n } (insertStart m n (m.waketime t)) t
        (m.waketime t) = .ok m' := by
      rcases insertStart_cases h hn' hn hbf with ⟨hmem, hpos⟩ | ⟨hpos, -, -⟩
      · obtain ⟨pre, post, hr⟩ := List.append_of_mem hmem
        rw [hr, List.append_assoc, List.cons_append] at hseg
        have hpost : post.length < m.timers.length := by
          rw [hr, List.length_append, List.length_cons] at hlen
          omega
        exact @insertTimer_total { m with timerList := n } _ post _ t (seg_suffix hseg) hpost
          (hafter pre _ post hr hpos)
      · rw [hpos]
        refine @insertTimer_total { m with timerList := n } _ rest _ t hseg (by
          change rest.length < m.timers.length; omega) ?_
        cases rest with
        | nil =>
          have hpt : .periodic = t := List.mem_singleton.mp h.periodic
          refine ⟨.sentinel, by simp, ?_⟩
          rw [← hpt] at hwt ⊢
          dsimp only
          rw [hsent]
          exact wrapBefore_half_turn (wrapBefore_self _)
        | cons y post =>
          have hyn : y = n := Option.some.inj hn'
          subst hyn
          obtain ⟨x, hx, hxb⟩ := hafter [] y post rfl hbf
          exact ⟨x, by simp only [List.cons_append, List.mem_cons]; exact Or.inr hx, hxb⟩
    obtain ⟨m', hm'⟩ := hins
    exact ⟨_, updateTimerList_of_insert hn hbf hm'⟩

/-- The list after the reschedule is sorted and holds the same timers. -/
theorem updateTimerList_ordered {m' : Mem} {t : TimerId} {rest : List TimerId}
    (h : Shape m (t :: rest)) (ht : t.IsCaller ∨ t = .periodic)
    (hsorted : rest.Pairwise fun x y => timerIsBefore (m.waketime y) (m.waketime x) = false)
    (hwithin : ∀ x ∈ t :: rest, Within now (m.waketime x))
    (hsent : m.waketime .sentinel = m.waketime .periodic + 0x80000000)
    (hok : updateTimerList m t .reschedule = .ok (m', w)) :
    ∃ l', Ordered m' now l' ∧ (∀ x, x ∈ l' ↔ x ∈ t :: rest) ∧ m'.waketime = m.waketime ∧
      w = m.waketime m'.timerList ∧ m'.users = m.users ∧ m'.kicked = m.kicked ∧
      m'.shutdownStatus = m.shutdownStatus := by
  rcases updateTimerList_reschedule h ht hok with
    ⟨rfl, rfl, n, hn, hb⟩ | ⟨a, b, n, next', rfl, -, rfl, rfl, hshape, hslot⟩
  · have htl : m'.timerList = t := Option.some.inj h.seg.1
    refine ⟨t :: rest, ⟨h, List.pairwise_cons.mpr ⟨?_, hsorted⟩, hwithin, hsent⟩,
      fun _ => Iff.rfl, rfl, by rw [htl], rfl, rfl, rfl⟩
    intro y hy
    cases rest with
    | nil => simp at hy
    | cons z rest' =>
      have hzn : z = n := Option.some.inj hn
      subst hzn
      have hz := hwithin z (by simp)
      rcases List.mem_cons.mp hy with rfl | hy
      · exact not_before_of_before (hwithin t (by simp)) hz hb
      · exact not_before_of_before_le (hwithin t (by simp)) hz (hwithin y (by simp [hy])) hb
          ((List.pairwise_cons.mp hsorted).1 y hy)
  · have hmem : ∀ x, x ∈ a ++ t :: b ↔ x ∈ t :: (a ++ b) := by
      intro x
      rw [mem_insert_iff, List.mem_cons]
      exact or_comm
    refine ⟨a ++ t :: b, ⟨hshape, ?_, fun x hx => hwithin x ((hmem x).mp hx), hsent⟩, hmem, rfl, rfl,
      rfl, rfl, rfl⟩
    exact hslot.sorted hsorted (fun x hx => hwithin x (List.mem_cons_of_mem t hx))
      (hwithin t (by simp))

end KlipperMcu.Sched
