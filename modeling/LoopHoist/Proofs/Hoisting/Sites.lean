import LoopHoist.Proofs.Hoisting.Account
import LoopHoist.Proofs.Sketch

/-!
# One loop, described without a traversal

Extraction walks through the body of a loop with a counter for the names it gives out, collects
constants as it goes, and builds a command anew only if something in it changed.  Here the same
rewrite is described by what is found and what is done with it:

* the `sites` of a body are its assignments from left to right, each with its place, and the
  `invariantSites` are those whose value is pure and reads nothing that the body assigns;
* the values of these sites, numbered from one, are the constants of the loop;
* the new body is the old one with the value at each of these places replaced, one at a time, by
  the read of the constant of that number.

`hoisted_whileDo_eq` says that hoisting does just that to a loop, spans included, and then hoists in
the loops of the new body.

## Strategy

`Command.replacement_extract` is the induction over the body.  In a command with two parts the
places of the sites begin with the turn into one part or the other, so the replacements in the first
part are done before those in the second and do not touch it (`Command.replaceAll_under`).
-/

namespace LoopHoist

/-! ## Places -/

/-- A step from a command to one of its parts: to the only part or the first of two, or to the
second. -/
inductive Turn where
  | first
  | second
deriving DecidableEq

/-- An assignment in a command: the turns that lead to it, and its value. -/
structure Site where
  place : List Turn
  value : Expression

/-- A site of a part as a site of the whole. -/
def Site.under (turn : Turn) (site : Site) : Site := ⟨turn :: site.place, site.value⟩

/-- The assignments of a command from left to right. -/
def Command.sites : Command → List Site
  | .assign _ value _ => [⟨[], value⟩]
  | .call .. | .skip _ => []
  | .ifThenElse _ first second _ | .seq first second _ =>
      first.sites.map (.under .first) ++ second.sites.map (.under .second)
  | .letIn _ body _ | .whileDo _ body _ => body.sites.map (.under .first)

/-- The command with another value in the assignment at a place.  The commands on the way there are
built anew. -/
def Command.replaceAt : Command → List Turn → Expression → Command
  | .assign target _ _, [], value => .assign target value .dummy
  | .ifThenElse condition first second _, .first :: place, value =>
      .ifThenElse condition (first.replaceAt place value) second .dummy
  | .ifThenElse condition first second _, .second :: place, value =>
      .ifThenElse condition first (second.replaceAt place value) .dummy
  | .seq first second _, .first :: place, value => .seq (first.replaceAt place value) second .dummy
  | .seq first second _, .second :: place, value => .seq first (second.replaceAt place value) .dummy
  | .letIn declaration body _, .first :: place, value =>
      .letIn declaration (body.replaceAt place value) .dummy
  | .whileDo condition body _, .first :: place, value =>
      .whileDo condition (body.replaceAt place value) .dummy
  | command, _, _ => command

/-- Puts the reads of numbered constants at the sites with these numbers, one after the other. -/
def Command.replaceAll (command : Command) (marks : List (Site × Nat)) : Command :=
  marks.foldl (fun replaced mark => replaced.replaceAt mark.1.place (readOf mark.2)) command

/-- The sites in the body of a loop whose value is pure and reads nothing that the body assigns. -/
def Command.invariantSites (body : Command) : List Site :=
  body.sites.filter fun site =>
    decide (site.value.isPure = true ∧ ∀ name ∈ site.value.free, name ∉ body.assigned)

theorem Command.map_value_sites : ∀ command : Command, command.sites.map Site.value = command.values
  | .assign .. | .call .. | .skip _ => rfl
  | .ifThenElse _ first second _ | .seq first second _ => by
      have hfirst := first.map_value_sites
      have hsecond := second.map_value_sites
      simp only [Command.sites, Command.values, List.map_append, List.map_map, ← hfirst, ← hsecond]
      rfl
  | .letIn _ body _ | .whileDo _ body _ => by
      have hbody := body.map_value_sites
      simp only [Command.sites, Command.values, List.map_map, ← hbody]
      rfl

/-! ## Numbered sites -/

/-- The constant for the value of a numbered site. -/
def constantOf (mark : Site × Nat) : Constant := ⟨hoistedName mark.2, mark.1.value⟩

/-- A numbered site of a part as one of the whole. -/
def markUnder (turn : Turn) (mark : Site × Nat) : Site × Nat := (mark.1.under turn, mark.2)

/-- The sites that extraction takes the values of, with the numbers of the names it gives them. -/
def Command.marks (assigned : List String) (issued : Nat) (command : Command) : List (Site × Nat) :=
  (command.sites.filter (·.value.isInvariant assigned)).zipIdx (issued + 1)

theorem filter_map_under (assigned : List String) (turn : Turn) (sites : List Site) :
    (sites.map (Site.under turn)).filter (·.value.isInvariant assigned) =
      (sites.filter (·.value.isInvariant assigned)).map (Site.under turn) :=
  List.filter_map ..

theorem zipIdx_map_under (turn : Turn) (sites : List Site) (start : Nat) :
    (sites.map (Site.under turn)).zipIdx start = (sites.zipIdx start).map (markUnder turn) := by
  rw [List.zipIdx_map]
  rfl

theorem Command.marks_of_part (whole : Command) {part : Command}
    (hsites : whole.sites = part.sites.map (.under .first)) (assigned : List String) (issued : Nat) :
    whole.marks assigned issued = (part.marks assigned issued).map (markUnder .first) := by
  rw [Command.marks, hsites, filter_map_under, zipIdx_map_under, Command.marks]

/-- The second of two parts goes on with the numbers where the first one stopped. -/
theorem Command.marks_of_parts (whole : Command) {first second : Command}
    (hsites : whole.sites = first.sites.map (.under .first) ++ second.sites.map (.under .second))
    (assigned : List String) (issued : Nat) :
    whole.marks assigned issued = (first.marks assigned issued).map (markUnder .first) ++
      (second.marks assigned (issued + (first.marks assigned issued).length)).map
        (markUnder .second) := by
  have hstart : issued + 1 + (first.sites.filter (·.value.isInvariant assigned)).length =
      issued + (first.sites.filter (·.value.isInvariant assigned)).length + 1 := by omega
  unfold Command.marks
  rw [hsites, List.filter_append, filter_map_under, filter_map_under, List.zipIdx_append,
    zipIdx_map_under, zipIdx_map_under, List.length_map, List.length_zipIdx, hstart]

theorem numbered_eq_map_zipIdx (values : List Expression) :
    ∀ issued, numbered issued values =
      (values.zipIdx (issued + 1)).map fun pair => ⟨hoistedName pair.2, pair.1⟩ := by
  induction values with
  | nil => intro issued; rfl
  | cons value rest ih =>
      intro issued
      rw [numbered, ih, List.zipIdx_cons, List.map_cons]

/-- The constants of extraction are those of its marks. -/
theorem Command.constants_extract_eq (assigned : List String) (command : Command) (issued : Nat) :
    (command.extract assigned issued).constants =
      (command.marks assigned issued).map constantOf := by
  have hvalues : command.values.filter (·.isInvariant assigned) =
      (command.sites.filter (·.value.isInvariant assigned)).map Site.value := by
    rw [← command.map_value_sites, List.filter_map]
    rfl
  rw [(extracts_extracted assigned command issued).constants_eq, hvalues, numbered_eq_map_zipIdx,
    List.zipIdx_map, List.map_map, Command.marks]
  rfl

/-! ## Replacing the values -/

/-- The command after the replacements, if there are any. -/
def Command.replaced? (command : Command) (marks : List (Site × Nat)) : Option Command :=
  if marks.isEmpty then none else some (command.replaceAll marks)

theorem Command.getD_replaced? (command : Command) (marks : List (Site × Nat)) :
    (command.replaced? marks).getD command = command.replaceAll marks := by
  unfold Command.replaced?
  cases marks <;> rfl

theorem Command.replaceAll_append (command : Command) (marks more : List (Site × Nat)) :
    command.replaceAll (marks ++ more) = (command.replaceAll marks).replaceAll more :=
  List.foldl_append

/-- Replacements in a part of a command build the command anew around the part. -/
theorem Command.replaceAll_under (build : Command → Span → Command) {turn : Turn}
    (hbuild : ∀ part span place value,
      (build part span).replaceAt (turn :: place) value = build (part.replaceAt place value) .dummy)
    (marks : List (Site × Nat)) :
    ∀ (part : Command) (span : Span), (build part span).replaceAll (marks.map (markUnder turn)) =
      build (part.replaceAll marks) (if marks.isEmpty then span else .dummy) := by
  induction marks with
  | nil => intro part span; rfl
  | cons mark rest ih =>
      intro part span
      have hstep : (build part span).replaceAt (turn :: mark.1.place) (readOf mark.2) =
          build (part.replaceAt mark.1.place (readOf mark.2)) .dummy := hbuild ..
      -- from the first replacement on the span is the dummy one
      have hrest := ih (part.replaceAt mark.1.place (readOf mark.2)) .dummy
      rw [ite_self] at hrest
      unfold Command.replaceAll at hrest ⊢
      simp only [List.map_cons, List.foldl_cons, markUnder, Site.under, hstep]
      exact hrest

theorem Command.map_replaced? (build : Command → Span → Command)
    (hbuild : ∀ part span place value,
      (build part span).replaceAt (.first :: place) value = build (part.replaceAt place value) .dummy)
    (part : Command) (span : Span) (marks : List (Site × Nat)) :
    (part.replaced? marks).map (fun part' => build part' .dummy) =
      (build part span).replaced? (marks.map (markUnder .first)) := by
  unfold Command.replaced?
  rw [Command.replaceAll_under build hbuild, List.isEmpty_map]
  cases marks <;> rfl

theorem Command.rebuildPair_replaced? (build : Command → Command → Span → Command)
    (hfirst : ∀ second first span place value, (build first second span).replaceAt
      (.first :: place) value = build (first.replaceAt place value) second .dummy)
    (hsecond : ∀ first second span place value, (build first second span).replaceAt
      (.second :: place) value = build first (second.replaceAt place value) .dummy)
    (first second : Command) (span : Span) (inFirst inSecond : List (Site × Nat)) :
    rebuildPair (fun first' second' => build first' second' .dummy) first second
        (first.replaced? inFirst) (second.replaced? inSecond) =
      (build first second span).replaced?
        (inFirst.map (markUnder .first) ++ inSecond.map (markUnder .second)) := by
  unfold Command.replaced?
  -- the marks of the first part come first, so the second part is still whole after them
  rw [Command.replaceAll_append, Command.replaceAll_under (build · second) (hfirst second),
    Command.replaceAll_under (build _) (hsecond _)]
  -- both sides are nothing exactly if neither part has a mark
  cases inFirst <;> cases inSecond <;> rfl

/-- Extraction replaces the values at its marks. -/
theorem Command.replacement_extract (assigned : List String) :
    ∀ (command : Command) (issued : Nat), (command.extract assigned issued).replacement =
      command.replaced? (command.marks assigned issued)
  | .assign target value span, issued => by
      unfold Command.extract Command.marks Command.sites
      by_cases hvalue : value.isInvariant assigned = true
      · rw [if_pos hvalue]
        simp only [List.filter_cons, hvalue]
        rfl
      · rw [if_neg hvalue]
        simp only [List.filter_cons, hvalue]
        rfl
  | .call .., _ | .skip _, _ => rfl
  | .ifThenElse condition first second span, issued => by
      rw [Command.extract, first.replacement_extract assigned, second.replacement_extract assigned,
        first.constants_extract_eq, List.length_map,
        (Command.ifThenElse condition first second span).marks_of_parts rfl]
      exact Command.rebuildPair_replaced? (.ifThenElse condition) (fun _ _ _ _ _ => rfl)
        (fun _ _ _ _ _ => rfl) first second span _ _
  | .seq first second span, issued => by
      rw [Command.extract, first.replacement_extract assigned, second.replacement_extract assigned,
        first.constants_extract_eq, List.length_map,
        (Command.seq first second span).marks_of_parts rfl]
      exact Command.rebuildPair_replaced? .seq (fun _ _ _ _ _ => rfl) (fun _ _ _ _ _ => rfl)
        first second span _ _
  | .letIn declaration body span, issued => by
      rw [Command.extract, body.replacement_extract assigned,
        (Command.letIn declaration body span).marks_of_part rfl]
      exact Command.map_replaced? (.letIn declaration) (fun _ _ _ _ => rfl) body span _
  | .whileDo condition body span, issued => by
      rw [Command.extract, body.replacement_extract assigned,
        (Command.whileDo condition body span).marks_of_part rfl]
      exact Command.map_replaced? (.whileDo condition) (fun _ _ _ _ => rfl) body span _

/-! ## What hoisting makes of a loop -/

theorem Command.marks_eq_invariantSites (body : Command) :
    body.marks body.assigned 0 = body.invariantSites.zipIdx 1 := by
  have hfilter : body.sites.filter (·.value.isInvariant body.assigned) = body.invariantSites := by
    refine List.filter_congr fun site _ => ?_
    rw [Bool.eq_iff_iff, decide_eq_true_eq]
    exact Expression.isInvariant_iff
  rw [Command.marks, hfilter]

theorem Command.numbered_taken (body : Command) :
    numbered 0 body.taken = (body.invariantSites.zipIdx 1).map constantOf := by
  rw [← body.constants_extract, body.constants_extract_eq, body.marks_eq_invariantSites]

theorem Command.extracted_eq_replaceAll (body : Command) :
    body.extracted body.assigned 0 = body.replaceAll (body.invariantSites.zipIdx 1) := by
  rw [Command.extracted, Command.replacement_extract, Command.getD_replaced?,
    body.marks_eq_invariantSites]

/-- A chain is folded from the back: the last declaration is innermost. -/
theorem Declaration.chain?_append_singleton (span : Span) (last : Declaration) :
    ∀ rest : List Declaration, Declaration.chain? span (rest ++ [last]) =
      some (rest.foldr (fun declaration chain => .seq declaration chain span) last)
  | [] => rfl
  | declaration :: rest => by
      have hne : rest ++ [last] ≠ [] := by simp
      rw [List.cons_append, Declaration.chain?, Declaration.chain?_append_singleton span last rest]
      · rfl
      · exact hne

/-- Hoisting in a loop that takes nothing hoists in its body. -/
theorem Command.hoisted_whileDo_of_taken_eq_nil {condition : Expression} {body : Command}
    {span : Span} (htaken : body.taken = []) :
    (Command.whileDo condition body span).hoisted =
      .whileDo condition body.hoisted (if body.hoist.isUnchanged then span else .dummy) := by
  unfold Command.hoisted Outcome.isUnchanged
  rw [Command.hoist_whileDo_of_taken_eq_nil htaken]
  unfold Outcome.map Outcome.result
  cases body.hoist.replacement <;> rfl

/-- **One loop, described without a traversal.**  If no site of the body is invariant, the loop is
hoisted in like any other command.  Otherwise it is put in a block of the constants `$h1`, `$h2`, …
for the values of the invariant sites, and hoisting goes on in the body in which each of these values
is replaced by the read of its constant. -/
theorem Command.hoisted_whileDo_eq (condition : Expression) (body : Command) (span : Span) :
    let marks := body.invariantSites.zipIdx 1
    let constants := marks.map fun mark => Constant.mk (hoistedName mark.2) mark.1.value
    (body.invariantSites = [] →
      (Command.whileDo condition body span).hoisted =
        .whileDo condition body.hoisted (if body.hoist.isUnchanged then span else .dummy)) ∧
    (body.invariantSites ≠ [] →
      (constants.map Constant.name).Nodup ∧
      ∃ rest last, constants.map Constant.declaration = rest ++ [last] ∧
        let chain := rest.foldr (fun declaration chain => .seq declaration chain .dummy) last
        chain.flatten = constants.map Constant.declaration ∧
        (Command.whileDo condition body span).hoisted =
          .letIn chain (.whileDo condition (body.replaceAll marks).hoisted .dummy) .dummy) := by
  intro marks constants
  have hnumbered : numbered 0 body.taken = constants := body.numbered_taken
  constructor
  · intro hsites
    apply Command.hoisted_whileDo_of_taken_eq_nil
    have hnil : constants = [] := by simp [constants, marks, hsites]
    rw [← map_value_numbered body.taken 0, hnumbered, hnil, List.map_nil]
  · intro hsites
    have hne : constants.map Constant.declaration ≠ [] := by simpa [constants, marks] using hsites
    -- chains are folded from the back, so the last constant is split off
    obtain ⟨rest, last, hsplit⟩ := (List.eq_nil_or_concat _).resolve_left hne
    rw [List.concat_eq_append] at hsplit
    have hchain := Declaration.chain?_append_singleton .dummy last rest
    rw [← hsplit, ← hnumbered] at hchain
    refine ⟨hnumbered ▸ nodup_names_numbered body.taken 0, rest, last, hsplit, ?_, ?_⟩
    · rw [flatten_of_chain? hchain, hnumbered]
    · rw [Command.hoisted, Command.hoist_whileDo_of_chain? hchain, ← body.extracted_eq_replaceAll]
      rfl

open Sketch in
/-- `if p then x := 1 else y := x + z; while d do let var k : Integer in w := z`. -/
def branchingBody : Command :=
  .seqAll .dummy
    [.ifThenElse (var "p") (assign "x" (int "1")) (assign "y" (binary (var "x") "+" (var "z"))) .dummy,
      loop (var "d") [block [integer "k"] (assign "w" (var "z"))]]

open Sketch in
/-- Of the three assignments the first and the third are replaced; a loop around a call keeps its
shape. -/
theorem hoisted_whileDo_eq_branchingBody :
    (∃ chain, chain.flatten = [const "$h1" (int "1"), const "$h2" (var "z")] ∧
      (Command.whileDo (var "c") branchingBody .dummy).hoisted = .letIn chain (.whileDo (var "c")
        (((branchingBody.replaceAt [.first, .first] (var "$h1")).replaceAt
          [.second, .first, .first] (var "$h2")).hoisted) .dummy) .dummy) ∧
    (Command.whileDo (var "c") (callVar "p" "x") .dummy).hoisted =
      .whileDo (var "c") (callVar "p" "x").hoisted .dummy := by
  constructor
  · obtain ⟨-, rest, last, -, hflatten, hloop⟩ :=
      (Command.hoisted_whileDo_eq (var "c") branchingBody .dummy).2 (by decide)
    exact ⟨_, hflatten, hloop⟩
  · exact ((Command.hoisted_whileDo_eq (var "c") (callVar "p" "x") .dummy).1 rfl).trans
      (by rw [ite_self])

end LoopHoist
