import LoopHoist.Span
import Mathlib.Data.Prod.Lex
import Mathlib.Order.Bounds.Basic

/-!
# Combining spans in any order

The dummy span stands for "no position", yet its four numbers are the least ones there are.  So it
could in principle come out of combining two spans that were written, and be taken for "no position"
when it is combined with a third: for spans that stop before they start this happens, and `combine`
is then not associative.

Spans that stop no earlier than they start (`Span.Ordered`) are safe.  For them neither the order nor
the grouping in which spans are combined matters, and what comes out are the extremes of the spans
that were written.

## Strategy

`IsHull` describes the extremes of a set of spans without an order on it, and a set has at most one
hull (`IsHull.unique`).  `Covers.append` is the only place where `combine` meets the dummy span: the
covers of two lists combine to the cover of both together.  Every law then says that two spans cover
the same list.
-/

namespace LoopHoist.Span

/-- The span stops no earlier than it starts. -/
def Ordered (span : Span) : Prop := span.start ≤ span.stop

instance : DecidablePred Ordered := fun span => inferInstanceAs (Decidable (span.start ≤ span.stop))

/-- The line and column a span starts at; the line decides, and the column on the same line. -/
def position (span : Span) : ℕ ×ₗ ℕ := toLex (span.line, span.column)

/-- The spans of a list that have a position. -/
def written (spans : List Span) : Set Span := {span | span ∈ spans ∧ span ≠ dummy}

/-! ## Hulls -/

/-- The span with the extremes of some spans. -/
structure IsHull (spans : Set Span) (hull : Span) : Prop where
  start : IsLeast (Span.start '' spans) hull.start
  stop : IsGreatest (Span.stop '' spans) hull.stop
  position : IsLeast (Span.position '' spans) hull.position

theorem position_inj {s t : Span} :
    s.position = t.position ↔ s.line = t.line ∧ s.column = t.column := by
  rw [position, position, toLex_inj, Prod.mk.injEq]

/-- The span that starts first gives its position to both. -/
theorem position_combine {s t : Span} (hs : s ≠ dummy) (ht : t ≠ dummy) :
    (s.combine t).position = min s.position t.position := by
  have hle : s.startsBy t ↔ s.position ≤ t.position := by
    rw [position, position, Prod.Lex.toLex_le_toLex, startsBy]
  simp only [combine, isDummy, beq_iff_eq, hs, ht, if_false]
  by_cases hfirst : s.startsBy t
  · rw [min_eq_left (hle.mp hfirst)]
    simp [position, hfirst]
  · rw [min_eq_right (le_of_not_ge (mt hle.mpr hfirst))]
    simp [position, hfirst]

namespace IsHull

variable {spans others : Set Span} {hull hull' : Span}

theorem nonempty (hhull : IsHull spans hull) : spans.Nonempty :=
  Set.image_nonempty.mp hhull.start.nonempty

theorem unique (hhull : IsHull spans hull) (hhull' : IsHull spans hull') : hull = hull' := by
  have hstart := hhull.start.unique hhull'.start
  have hstop := hhull.stop.unique hhull'.stop
  obtain ⟨hline, hcolumn⟩ := position_inj.mp (hhull.position.unique hhull'.position)
  cases hull
  cases hull'
  simp_all

theorem singleton (span : Span) : IsHull {span} span := by
  constructor
  · rw [Set.image_singleton]
    exact isLeast_singleton
  · rw [Set.image_singleton]
    exact isGreatest_singleton
  · rw [Set.image_singleton]
    exact isLeast_singleton

theorem union (hhull : IsHull spans hull) (hhull' : IsHull others hull') (hwritten : hull ≠ dummy)
    (hwritten' : hull' ≠ dummy) : IsHull (spans ∪ others) (hull.combine hull') := by
  have hstart : (hull.combine hull').start = min hull.start hull'.start := by
    simp [combine, isDummy, hwritten, hwritten']
  have hstop : (hull.combine hull').stop = max hull.stop hull'.stop := by
    simp [combine, isDummy, hwritten, hwritten']
  constructor
  · rw [Set.image_union, hstart]
    exact hhull.start.union hhull'.start
  · rw [Set.image_union, hstop]
    exact hhull.stop.union hhull'.stop
  · rw [Set.image_union, position_combine hwritten hwritten']
    exact hhull.position.union hhull'.position

theorem ordered (hhull : IsHull spans hull) (hordered : ∀ span ∈ spans, span.Ordered) :
    hull.Ordered := by
  -- any span of the set stands between the two ends of the hull
  obtain ⟨span, hspan⟩ := hhull.nonempty
  calc hull.start ≤ span.start := hhull.start.2 (Set.mem_image_of_mem _ hspan)
    _ ≤ span.stop := hordered span hspan
    _ ≤ hull.stop := hhull.stop.2 (Set.mem_image_of_mem _ hspan)

/-- The hull of spans that were written is not taken for "no position". -/
theorem ne_dummy (hhull : IsHull spans hull) (hordered : ∀ span ∈ spans, span.Ordered)
    (hwritten : ∀ span ∈ spans, span ≠ dummy) : hull ≠ dummy := by
  rintro rfl
  -- the first of the spans would start at line 0, column 0, and none of them would stop after 0
  obtain ⟨first, hfirst, hposition⟩ := hhull.position.1
  have hstop : first.stop ≤ 0 := hhull.stop.2 (Set.mem_image_of_mem _ hfirst)
  have hstart : first.start ≤ first.stop := hordered first hfirst
  obtain ⟨hline, hcolumn⟩ := position_inj.mp hposition
  refine hwritten first hfirst ?_
  cases first
  simp_all [dummy]

end IsHull

/-! ## The cover of a list -/

/-- The span that covers a list: the hull of the spans that were written, and the dummy span if there
are none. -/
inductive Covers (spans : List Span) (cover : Span) : Prop
  | nothing (hnone : written spans = ∅) (hcover : cover = dummy)
  | hull (hhull : IsHull (written spans) cover)

theorem written_append (spans others : List Span) :
    written (spans ++ others) = written spans ∪ written others := by
  ext span
  simp only [written, List.mem_append, Set.mem_union, Set.mem_ofPred_eq, or_and_right]

theorem written_eq_of_subset_of_subset {spans others : List Span} (hsubset : spans ⊆ others)
    (hsubset' : others ⊆ spans) : written spans = written others :=
  Set.Subset.antisymm (fun _ hspan => ⟨hsubset hspan.1, hspan.2⟩)
    (fun _ hspan => ⟨hsubset' hspan.1, hspan.2⟩)

@[simp] theorem dummy_combine (span : Span) : dummy.combine span = span := rfl

@[simp] theorem combine_dummy (span : Span) : span.combine dummy = span := by
  by_cases hspan : span = dummy
  · rw [hspan, dummy_combine]
  · simp [combine, isDummy, hspan]

namespace Covers

variable {spans others : List Span} {cover cover' : Span}

theorem singleton (span : Span) : Covers [span] span := by
  by_cases hspan : span = dummy
  · refine .nothing (Set.eq_empty_iff_forall_notMem.mpr fun other hother => ?_) hspan
    exact hother.2 ((List.mem_singleton.mp hother.1).trans hspan)
  · refine .hull ?_
    have hwritten : written [span] = {span} := by
      ext other
      simp only [written, List.mem_singleton, Set.mem_ofPred_eq, Set.mem_singleton_iff]
      exact ⟨And.left, fun hother => ⟨hother, hother ▸ hspan⟩⟩
    rw [hwritten]
    exact .singleton span

theorem unique (hcovers : Covers spans cover) (hcovers' : Covers spans cover') : cover = cover' := by
  cases hcovers with
  | nothing hnone hcover =>
      cases hcovers' with
      | nothing _ hcover' => rw [hcover, hcover']
      | hull hhull => exact absurd hnone hhull.nonempty.ne_empty
  | hull hhull =>
      cases hcovers' with
      | nothing hnone _ => exact absurd hnone hhull.nonempty.ne_empty
      | hull hhull' => exact hhull.unique hhull'

theorem congr (hcovers : Covers spans cover) (hsubset : spans ⊆ others) (hsubset' : others ⊆ spans) :
    Covers others cover := by
  have hwritten := written_eq_of_subset_of_subset hsubset hsubset'
  cases hcovers with
  | nothing hnone hcover => exact .nothing (hwritten ▸ hnone) hcover
  | hull hhull => exact .hull (hwritten ▸ hhull)

theorem perm (hcovers : Covers spans cover) (hperm : spans.Perm others) : Covers others cover :=
  hcovers.congr hperm.subset hperm.symm.subset

theorem ordered (hcovers : Covers spans cover) (hordered : ∀ span ∈ spans, span.Ordered) :
    cover.Ordered := by
  cases hcovers with
  | nothing _ hcover => exact hcover ▸ Nat.le_refl 0
  | hull hhull => exact hhull.ordered fun span hspan => hordered span hspan.1

theorem isHull (hcovers : Covers spans cover) (hsome : ∃ span ∈ spans, span ≠ dummy) :
    IsHull (written spans) cover := by
  cases hcovers with
  | nothing hnone _ =>
      obtain ⟨span, hspan⟩ := hsome
      exact absurd hspan (Set.eq_empty_iff_forall_notMem.mp hnone span)
  | hull hhull => exact hhull

theorem ne_dummy (hcovers : Covers spans cover) (hordered : ∀ span ∈ spans, span.Ordered)
    (hsome : ∃ span ∈ spans, span ≠ dummy) : cover ≠ dummy :=
  (hcovers.isHull hsome).ne_dummy (fun span hspan => hordered span hspan.1) fun _ hspan => hspan.2

/-- Combining the covers of two lists covers both. -/
theorem append (hcovers : Covers spans cover) (hcovers' : Covers others cover')
    (hordered : ∀ span ∈ spans ++ others, span.Ordered) :
    Covers (spans ++ others) (cover.combine cover') := by
  obtain ⟨hspans, hothers⟩ := List.forall_mem_append.mp hordered
  cases hcovers with
  | nothing hnone hcover =>
      -- nothing was written in the first list, so the second decides
      have hwritten : written (spans ++ others) = written others := by
        rw [written_append, hnone, Set.empty_union]
      rw [hcover, dummy_combine]
      cases hcovers' with
      | nothing hnone' hcover' => exact .nothing (hwritten.trans hnone') hcover'
      | hull hhull' => exact .hull (hwritten ▸ hhull')
  | hull hhull =>
      cases hcovers' with
      | nothing hnone' hcover' =>
          rw [hcover', combine_dummy]
          refine .hull ?_
          rwa [written_append, hnone', Set.union_empty]
      | hull hhull' =>
          -- neither hull is the dummy span, so nothing that was written is lost
          have hcover := hhull.ne_dummy (fun span hspan => hspans span hspan.1) fun _ hspan => hspan.2
          have hcover' := hhull'.ne_dummy (fun span hspan => hothers span hspan.1)
            fun _ hspan => hspan.2
          refine .hull ?_
          rw [written_append]
          exact hhull.union hhull' hcover hcover'

end Covers

theorem covers_combine {s t : Span} (hs : s.Ordered) (ht : t.Ordered) :
    Covers [s, t] (s.combine t) :=
  (Covers.singleton s).append (.singleton t) (by simp [hs, ht])

theorem covers_foldl {spans : List Span} (hspans : ∀ span ∈ spans, span.Ordered) :
    ∀ {earlier : List Span} {cover : Span}, (∀ span ∈ earlier, span.Ordered) →
      Covers earlier cover → Covers (earlier ++ spans) (spans.foldl combine cover) := by
  induction spans with
  | nil =>
      intro earlier cover _ hcovers
      rwa [List.append_nil]
  | cons span rest ih =>
      intro earlier cover hearlier hcovers
      obtain ⟨hspan, hrest⟩ := List.forall_mem_cons.mp hspans
      have hbefore : ∀ s ∈ earlier ++ [span], s.Ordered :=
        List.forall_mem_append.mpr ⟨hearlier, List.forall_mem_singleton.mpr hspan⟩
      -- what was combined so far covers the spans so far, this one now included
      have hstep := hcovers.append (.singleton span) hbefore
      rw [List.append_cons]
      exact ih hrest hbefore hstep

theorem covers_combineAll {spans : List Span} (hspans : ∀ span ∈ spans, span.Ordered) :
    Covers spans (combineAll spans) :=
  covers_foldl hspans (List.forall_mem_nil _) (.nothing (by simp [written]) rfl)

/-! ## Groupings -/

/-- A way to combine spans two at a time. -/
inductive Grouping where
  | one (span : Span)
  | two (left right : Grouping)

namespace Grouping

/-- The spans of a grouping from left to right. -/
def spans : Grouping → List Span
  | .one span => [span]
  | .two left right => left.spans ++ right.spans

/-- What the spans of a grouping combine to. -/
def total : Grouping → Span
  | .one span => span
  | .two left right => left.total.combine right.total

theorem covers_total (grouping : Grouping) (hordered : ∀ span ∈ grouping.spans, span.Ordered) :
    Covers grouping.spans grouping.total := by
  induction grouping with
  | one span => exact .singleton span
  | two left right ihLeft ihRight =>
      obtain ⟨hleft, hright⟩ := List.forall_mem_append.mp hordered
      exact (ihLeft hleft).append (ihRight hright) hordered

end Grouping

/-- **Order and grouping do not matter.**  On ordered spans `combine` is associative, commutative and
idempotent with the dummy span as its identity, it stays among ordered spans, and it never makes the
dummy span out of two others.  Whatever the order and the grouping, the spans of a list combine to
what combining them from left to right gives; if one of them was written, that is the span with their
least start, greatest stop and first position. -/
theorem combine_order_grouping (a b c : Span) (ha : a.Ordered) (hb : b.Ordered) (hc : c.Ordered)
    (spans : List Span) (hspans : ∀ span ∈ spans, span.Ordered) :
    ((a.combine b).combine c = a.combine (b.combine c) ∧ a.combine b = b.combine a ∧
      a.combine a = a ∧ dummy.combine a = a ∧ a.combine dummy = a) ∧
    ((a ≠ dummy → b ≠ dummy → a.combine b ≠ dummy) ∧ (a.combine b).Ordered) ∧
    (∀ others, others.Perm spans → combineAll others = combineAll spans) ∧
    (∀ grouping : Grouping, grouping.spans.Perm spans → grouping.total = combineAll spans) ∧
    ((∃ span ∈ spans, span ≠ dummy) → IsHull (written spans) (combineAll spans)) := by
  have hab := covers_combine ha hb
  have hcovers := covers_combineAll hspans
  refine ⟨⟨?_, ?_, ?_, dummy_combine a, combine_dummy a⟩, ⟨?_, ?_⟩, ?_, ?_, hcovers.isHull⟩
  · -- both groupings cover the three spans, and a list has one cover
    have hall : ∀ span ∈ [a, b] ++ [c], span.Ordered := by simp [ha, hb, hc]
    have hright := (Covers.singleton a).append (covers_combine hb hc) hall
    exact (hab.append (.singleton c) hall).unique hright
  · exact hab.unique ((covers_combine hb ha).perm (.swap a b []))
  · exact ((covers_combine ha ha).congr (by simp) (by simp)).unique (.singleton a)
  · intro hwritten _
    exact hab.ne_dummy (by simp [ha, hb]) ⟨a, by simp, hwritten⟩
  · exact hab.ordered (by simp [ha, hb])
  · intro others hperm
    have hothers := covers_combineAll fun span hspan => hspans span (hperm.subset hspan)
    exact (hothers.perm hperm).unique hcovers
  · intro grouping hperm
    have htotal := grouping.covers_total fun span hspan => hspans span (hperm.subset hspan)
    exact (htotal.perm hperm).unique hcovers

/-- A span on line 1, a dummy span and a span on line 2 are combined from the back, and grouped. -/
theorem combine_order_grouping_threeSpans :
    let first : Span := ⟨4, 9, 1, 5⟩
    let second : Span := ⟨12, 20, 2, 3⟩
    (Grouping.two (.two (.one second) (.one dummy)) (.one first)).total =
        combineAll [first, dummy, second] ∧
      IsHull {first, second} (combineAll [first, dummy, second]) ∧
      combineAll [first, dummy, second] = ⟨4, 20, 1, 5⟩ := by
  intro first second
  have hlaws := combine_order_grouping first dummy second (by decide) (by decide) (by decide)
    [first, dummy, second] (by decide)
  have hwritten : written [first, dummy, second] = {first, second} := by
    ext span
    simp only [written, List.mem_cons, List.not_mem_nil, or_false, Set.mem_ofPred_eq,
      Set.mem_insert_iff, Set.mem_singleton_iff]
    constructor
    · rintro ⟨rfl | rfl | rfl, hspan⟩
      · exact .inl rfl
      · exact absurd rfl hspan
      · exact .inr rfl
    · rintro (rfl | rfl)
      · exact ⟨.inl rfl, by decide⟩
      · exact ⟨.inr (.inr rfl), by decide⟩
  refine ⟨hlaws.2.2.2.1 _ (by decide), ?_, by decide⟩
  rw [← hwritten]
  exact hlaws.2.2.2.2 ⟨first, by decide, by decide⟩

/-- A span that stops before it starts can turn another into the dummy span, and then grouping
matters. -/
example :
    let a : Span := ⟨1, 0, 0, 0⟩
    let b : Span := ⟨0, 0, 1, 0⟩
    let c : Span := ⟨5, 6, 7, 8⟩
    a.combine b = dummy ∧ (a.combine b).combine c ≠ a.combine (b.combine c) := by decide

end LoopHoist.Span
