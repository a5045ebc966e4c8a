import LoopHoist.Proofs.Document.Faults
import LoopHoist.Proofs.Printing.Canonical
import LoopHoist.Proofs.Sketch
import Mathlib.Algebra.GroupWithZero.Nat
import Mathlib.Logic.Function.Iterate

/-!
# Taking chains of declarations apart

A declaration is taken apart without recursion into it.  What is still to be visited is kept on a
stack, and a pair is replaced on the stack by its two halves, so that the stack grows before it gets
shorter and holds pieces from many levels of the tree at once.  `Walk` is this loop with its two
lists.

However a chain is nested, the loop ends after as many rounds as the chain has pairs and parts, and
what it found are the parts from left to right, as the recursive definition `Declaration.parts` lists
them.  It follows what becomes of chains that are built from lists: those of a lowered document, and
those of constants.

## Strategy

Two facts about the whole stack carry the proof.  One round takes one off the number of pairs and
parts on the stack (`Walk.remaining_round`), and it changes neither what was found nor what is still
to be found when the two are taken together (`Walk.answer_round`).
-/

namespace LoopHoist

/-! ## The loop and its stack -/

theorem Declaration.parts_of_ne_seq {declaration : Declaration}
    (hleaf : ∀ first second span, declaration ≠ .seq first second span) :
    declaration.parts = [declaration] := by
  cases declaration with
  | seq first second span => exact absurd rfl (hleaf first second span)
  | _ => rfl

/-- The state of the loop: the parts found so far, and the stack of what is still to be visited, its
top first. -/
structure Walk where
  found : List Declaration
  pending : List Declaration

namespace Walk

/-- The loop begins with the declaration on the stack. -/
def start (declaration : Declaration) : Walk := ⟨[], [declaration]⟩

/-- One round.  A pair is taken from the stack and its halves are put there, the first one on top;
anything else is a part.  With nothing on the stack the loop is over. -/
def round : Walk → Walk
  | ⟨found, []⟩ => ⟨found, []⟩
  | ⟨found, .seq first second _ :: pending⟩ => ⟨found, first :: second :: pending⟩
  | ⟨found, part :: pending⟩ => ⟨found ++ [part], pending⟩

/-- The pairs and parts of everything on the stack. -/
def remaining (walk : Walk) : Nat := (walk.pending.map Declaration.size).sum

/-- What was found, and the parts of everything on the stack from the top down. -/
def answer (walk : Walk) : List Declaration :=
  walk.found ++ walk.pending.flatMap Declaration.parts

theorem remaining_eq_zero_iff {walk : Walk} : walk.remaining = 0 ↔ walk.pending = [] := by
  constructor
  · intro hremaining
    cases hpending : walk.pending with
    | nil => rfl
    | cons declaration pending =>
        have hsize : 0 < declaration.size := by cases declaration <;> simp [Declaration.size]
        rw [remaining, hpending, List.map_cons, List.sum_cons] at hremaining
        omega
  · intro hpending
    rw [remaining, hpending, List.map_nil, List.sum_nil]

theorem remaining_round (walk : Walk) : walk.round.remaining = walk.remaining - 1 := by
  fun_cases round walk with
  | case1 => rfl
  | case2 found first second span pending =>
      -- the stack gets longer, but the pair itself is no longer counted
      simp only [remaining, List.map_cons, List.sum_cons, Declaration.size]
      omega
  | case3 found part pending hpart =>
      have hsize : part.size = 1 := by
        cases part with
        | seq first second span => exact absurd rfl (hpart first second span)
        | _ => rfl
      simp only [remaining, List.map_cons, List.sum_cons, hsize]
      omega

theorem answer_round (walk : Walk) : walk.round.answer = walk.answer := by
  fun_cases round walk with
  | case1 => rfl
  | case2 found first second span pending =>
      -- the halves go on the stack in the order in which their parts are listed
      simp only [answer, List.flatMap_cons, Declaration.parts, List.append_assoc]
  | case3 found part pending hpart =>
      simp only [answer, List.flatMap_cons, Declaration.parts_of_ne_seq hpart, List.append_assoc]

theorem remaining_iterate (walk : Walk) (rounds : Nat) :
    (round^[rounds] walk).remaining = walk.remaining - rounds := by
  induction rounds with
  | zero => rfl
  | succ rounds ih =>
      rw [Function.iterate_succ_apply', remaining_round, ih]
      omega

theorem answer_iterate (walk : Walk) (rounds : Nat) :
    (round^[rounds] walk).answer = walk.answer := by
  induction rounds with
  | zero => rfl
  | succ rounds ih => rw [Function.iterate_succ_apply', answer_round, ih]

/-- The loop is over after as many rounds as there are pairs and parts, and not before. -/
theorem pending_iterate_eq_nil_iff (walk : Walk) (rounds : Nat) :
    (round^[rounds] walk).pending = [] ↔ walk.remaining ≤ rounds := by
  rw [← remaining_eq_zero_iff, remaining_iterate, Nat.sub_eq_zero_iff_le]

/-- When the loop is over it has found the answer. -/
theorem found_iterate {walk : Walk} {rounds : Nat} (hrounds : walk.remaining ≤ rounds) :
    (round^[rounds] walk).found = walk.answer := by
  have hpending := (walk.pending_iterate_eq_nil_iff rounds).mpr hrounds
  rw [← walk.answer_iterate rounds, answer, hpending, List.flatMap_nil, List.append_nil]

@[simp] theorem remaining_start (declaration : Declaration) :
    (start declaration).remaining = declaration.size :=
  List.sum_singleton

@[simp] theorem answer_start (declaration : Declaration) :
    (start declaration).answer = declaration.parts :=
  List.flatMap_singleton ..

end Walk

/-! ## The parts of a declaration -/

theorem Declaration.flattenAll_eq_flatMap (pending : List Declaration) :
    Declaration.flattenAll pending = pending.flatMap Declaration.parts := by
  fun_induction Declaration.flattenAll pending with
  | case1 => rfl
  | case2 first second span pending ih =>
      rw [ih, List.flatMap_cons, List.flatMap_cons, List.flatMap_cons, Declaration.parts,
        List.append_assoc]
  | case3 leaf pending hleaf ih =>
      rw [ih, List.flatMap_cons, Declaration.parts_of_ne_seq hleaf, List.singleton_append]

theorem Declaration.flatten_eq_parts (declaration : Declaration) :
    declaration.flatten = declaration.parts := by
  rw [Declaration.flatten, Declaration.flattenAll_eq_flatMap, List.flatMap_singleton]

/-- The parts of a chain are those of the declarations that it was built from. -/
theorem Declaration.flatten_chain? {span : Span} :
    ∀ {declarations : List Declaration} {chain : Declaration},
      Declaration.chain? span declarations = some chain →
      chain.flatten = declarations.flatMap Declaration.flatten
  | [declaration], _, hchain => by
      cases hchain
      rw [List.flatMap_singleton]
  | declaration :: next :: rest, _, hchain => by
      obtain ⟨tail, htail, rfl⟩ := Option.map_eq_some_iff.mp hchain
      have hrest := Declaration.flatten_chain? htail
      rw [List.flatMap_cons, ← hrest]
      simp only [Declaration.flatten_eq_parts, Declaration.parts]

/-! ## Chains of lowered documents -/

namespace Document

/-- Documents that lower one by one lower as a list. -/
theorem Declaration.lowerAll_eq_ok {span : Span} {documents : List Declaration}
    {trees : List LoopHoist.Declaration}
    (hlower : List.Forall₂ (fun document tree => document.lower span = .ok tree) documents trees) :
    Declaration.lowerAll span documents = .ok trees := by
  induction hlower with
  | nil => rfl
  | cons hfirst _ ih =>
      rw [Declaration.lowerAll, hfirst, ih]
      rfl

theorem Declaration.exists_lower_sequential {span : Span} {documents : List Declaration}
    {trees : List LoopHoist.Declaration} (hdocuments : documents ≠ [])
    (hlower : List.Forall₂ (fun document tree => document.lower span = .ok tree) documents trees) :
    ∃ chain, (Declaration.sequential documents).lower span = .ok chain ∧
      LoopHoist.Declaration.chain? span trees = some chain := by
  cases hlower with
  | nil => exact absurd rfl hdocuments
  | @cons document tree rest trees hfirst hrest =>
      -- one declaration is enough for a chain
      obtain ⟨chain, hchain⟩ := @exists_chain?_cons span tree trees
      refine ⟨chain, ?_, hchain⟩
      rw [Declaration.lower, Declaration.lowerAll_eq_ok (.cons hfirst hrest)]
      simp only [bind, Except.bind, hchain]
      rfl

end Document

/-- **Chains are taken apart from left to right.**  On every declaration the loop is over after as many
rounds as there are pairs and parts, and not before.  What it found is what flattening answers, and
these are the parts that the recursive definition lists.  Hence a sequence of documents that can be
lowered is lowered to a declaration with the parts of the lowered documents one after the other, and
a chain of constants has these constants as its parts. -/
theorem Declaration.flatten_walks_parts (declaration : Declaration) (span : Span)
    (documents : List Document.Declaration) (trees constants : List Declaration) :
    ((∀ rounds, (Walk.round^[rounds] (.start declaration)).pending = [] ↔
        declaration.size ≤ rounds) ∧
      (Walk.round^[declaration.size] (.start declaration)).found = declaration.flatten ∧
      declaration.flatten = declaration.parts) ∧
    (documents ≠ [] →
      List.Forall₂ (fun document tree => document.lower span = .ok tree) documents trees →
      ∃ whole, (Document.Declaration.sequential documents).lower span = .ok whole ∧
        whole.flatten = trees.flatMap Declaration.flatten) ∧
    (constants ≠ [] →
      (∀ constant ∈ constants, ∃ name value place, constant = .const name value place) →
      ∃ chain, Declaration.chain? span constants = some chain ∧ chain.flatten = constants) := by
  refine ⟨⟨?_, ?_, declaration.flatten_eq_parts⟩, ?_, ?_⟩
  · intro rounds
    rw [Walk.pending_iterate_eq_nil_iff, Walk.remaining_start]
  · rw [Walk.found_iterate (Nat.le_of_eq (Walk.remaining_start declaration)), Walk.answer_start,
      declaration.flatten_eq_parts]
  · intro hdocuments hlower
    obtain ⟨whole, hwhole, hchain⟩ :=
      Document.Declaration.exists_lower_sequential hdocuments hlower
    exact ⟨whole, hwhole, Declaration.flatten_chain? hchain⟩
  · intro hconstants hconst
    obtain ⟨first, rest, rfl⟩ := List.exists_cons_of_ne_nil hconstants
    obtain ⟨chain, hchain⟩ := @Document.exists_chain?_cons span first rest
    refine ⟨chain, hchain, ?_⟩
    -- a constant is its own and only part, so nothing is taken apart a second time
    have hflatten : ∀ constant ∈ first :: rest, constant.flatten = [constant] := by
      intro constant hmem
      obtain ⟨name, value, place, rfl⟩ := hconst constant hmem
      rw [Declaration.flatten_eq_parts, Declaration.parts_of_ne_seq (by rintro _ _ _ ⟨⟩)]
    rw [Declaration.flatten_chain? hchain, List.flatMap_congr hflatten, List.flatMap_singleton']

open Sketch in
/-- `(const a ~ 1; const b ~ 2); (const c ~ 3; var d : Integer)`, nested as shown. -/
def nestedChain : Declaration :=
  .seq (.seq (const "a" (int "1")) (const "b" (int "2")) .dummy)
    (.seq (const "c" (int "3")) (integer "d") .dummy) .dummy

open Sketch in
/-- The loop needs seven rounds for four parts nested to both sides; a sequence in a sequence of
documents is taken apart too, and so is a chain of two constants. -/
theorem flatten_walks_parts_nestedChain :
    ((Walk.round^[6] (.start nestedChain)).pending ≠ [] ∧
      (Walk.round^[7] (.start nestedChain)).found =
        [const "a" (int "1"), const "b" (int "2"), const "c" (int "3"), integer "d"]) ∧
    (∃ whole, (Document.Declaration.sequential
        [.sequential [.const "a" (.var "x"), .const "b" (.var "y")], .const "c" (.var "z")]).lower
          .dummy = .ok whole ∧
      whole.flatten = [const "a" (var "x"), const "b" (var "y"), const "c" (var "z")]) ∧
    ∃ chain, Declaration.chain? .dummy [const "$h1" (int "1"), const "$h2" (var "k")] = some chain ∧
      chain.flatten = [const "$h1" (int "1"), const "$h2" (var "k")] := by
  obtain ⟨⟨hends, hfound, hparts⟩, hdocuments, hconstants⟩ :=
    nestedChain.flatten_walks_parts .dummy
      [.sequential [.const "a" (.var "x"), .const "b" (.var "y")], .const "c" (.var "z")]
      [.seq (const "a" (var "x")) (const "b" (var "y")) .dummy, const "c" (var "z")]
      [const "$h1" (int "1"), const "$h2" (var "k")]
  refine ⟨⟨fun hnil => ?_, hfound.trans (hparts.trans rfl)⟩, ?_, hconstants (by simp) ?_⟩
  · exact absurd ((hends 6).mp hnil) (by decide)
  · obtain ⟨whole, hwhole, hflatten⟩ := hdocuments (by simp) (.cons rfl (.cons rfl .nil))
    refine ⟨whole, hwhole, hflatten.trans ?_⟩
    simp [Declaration.flatten_eq_parts, Declaration.parts, const]
  · simp [const]

end LoopHoist
