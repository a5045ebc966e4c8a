import LoopHoist.Analysis.Literals
import LoopHoist.Proofs.Fragments
import LoopHoist.Proofs.Hoisting.Blocks
import Mathlib.Algebra.BigOperators.Group.List.Basic
import Mathlib.Tactic.Abel

/-!
# Literals are counted once and kept

Two facts about the literals of a program, put together in `literals_counted_and_kept`:

* the count is complete: it is the number of integer and of character expressions among all
  fragments of the program, wherever these stand;
* the count survives hoisting, whatever names the program uses.

## Strategy

The counter has one equation for each constructor.  Read together they say one thing
(`Fragment.literals_eq`): the literals of a fragment are its own, one if it is a literal itself, and
those of the fragments it is directly built from.  Completeness is then one induction over fragments
that mentions no constructor at all.

An extraction moves literals: those that leave the body are in the values of the constants
(`Extracts.literals_add`), each once, and the reads that replace values have none.  So a loop
together with its block has the literals that the loop had.
-/

namespace LoopHoist

namespace LiteralCount

instance : AddCommMonoid LiteralCount where
  add_assoc a b c := by ext <;> simp [Nat.add_assoc]
  zero_add a := by ext <;> simp
  add_zero a := by ext <;> simp
  add_comm a b := by ext <;> simp [Nat.add_comm]
  nsmul := nsmulRec

/-- A count that goes through a list one by one is the sum over the list. -/
theorem eq_sum_map {α : Type} {all : List α → LiteralCount} {one : α → LiteralCount}
    (hnil : all [] = 0) (hcons : ∀ first rest, all (first :: rest) = one first + all rest)
    (parts : List α) : all parts = (parts.map one).sum := by
  induction parts with
  | nil => simpa using hnil
  | cons first rest ih => rw [hcons, ih, List.map_cons, List.sum_cons]

end LiteralCount

/-! ## The count is complete -/

namespace Fragment

/-- Whether a fragment is an integer expression. -/
def isInteger : Fragment → Bool
  | .expression (.integer ..) => true
  | _ => false

/-- Whether a fragment is a character expression. -/
def isCharacter : Fragment → Bool
  | .expression (.character ..) => true
  | _ => false

/-- A fragment counted as the literal that it is itself, if it is one. -/
def ownLiterals (fragment : Fragment) : LiteralCount :=
  ⟨if fragment.isInteger then 1 else 0, if fragment.isCharacter then 1 else 0⟩

theorem ownLiterals_eq_zero {fragment : Fragment} (hinteger : fragment.isInteger = false)
    (hcharacter : fragment.isCharacter = false) : fragment.ownLiterals = 0 := by
  rw [ownLiterals, hinteger, hcharacter]
  rfl

/-- The literals of a fragment.  Types and formal parameters hold no expressions. -/
def literals : Fragment → LiteralCount
  | .command c => c.literals
  | .expression e => e.literals
  | .vname v => v.literals
  | .argument a => a.literals
  | .declaration d => d.literals
  | .parameter _ | .type _ => 0

end Fragment

theorem Vname.literals_eq_sum (vname : Vname) :
    vname.literals = (vname.children.map Fragment.literals).sum := by
  cases vname <;> simp [Vname.literals, Vname.children, Fragment.literals]

theorem ActualParameter.literals_eq_sum (argument : ActualParameter) :
    argument.literals = (argument.children.map Fragment.literals).sum := by
  cases argument <;> simp [ActualParameter.literals, ActualParameter.children, Fragment.literals]

theorem ActualParameter.literalsAll_eq_sum (arguments : List ActualParameter) :
    ActualParameter.literalsAll arguments =
      ((arguments.map Fragment.argument).map Fragment.literals).sum := by
  rw [List.map_map]
  exact LiteralCount.eq_sum_map (by simp only [literalsAll]) (fun _ _ => by rw [literalsAll]; rfl)
    arguments

theorem Command.literals_eq_sum (command : Command) :
    command.literals = (command.children.map Fragment.literals).sum := by
  cases command with
  | call _ arguments _ =>
      rw [Command.literals, ActualParameter.literalsAll_eq_sum, Command.children]
  | assign | skip | ifThenElse | letIn | seq | whileDo =>
      simp [Command.literals, Command.children, Fragment.literals, add_assoc]

theorem Declaration.literals_eq_sum (declaration : Declaration) :
    declaration.literals = (declaration.children.map Fragment.literals).sum := by
  cases declaration <;>
    simp [Declaration.literals, Declaration.children, Fragment.literals, Function.comp_def]

/-- An expression that is a literal counts itself. -/
theorem Expression.literals_eq_add_sum (expression : Expression) :
    expression.literals = (Fragment.expression expression).ownLiterals +
      (expression.children.map Fragment.literals).sum := by
  cases expression with
  | integer | character =>
      simp [Expression.literals, Expression.children, Fragment.ownLiterals, Fragment.isInteger,
        Fragment.isCharacter]
  | empty | read | unary | binary | ifThenElse | letIn =>
      rw [Fragment.ownLiterals_eq_zero rfl rfl, zero_add]
      simp [Expression.literals, Expression.children, Fragment.literals, add_assoc]
  | call _ arguments _ =>
      rw [Fragment.ownLiterals_eq_zero rfl rfl, zero_add, Expression.literals,
        ActualParameter.literalsAll_eq_sum, Expression.children]
  | array elements _ =>
      rw [Fragment.ownLiterals_eq_zero rfl rfl, zero_add, Expression.literals, Expression.children,
        List.map_map]
      exact LiteralCount.eq_sum_map (by simp only [literalsAll])
        (fun _ _ => by rw [literalsAll]; rfl) elements
  | record fields _ =>
      rw [Fragment.ownLiterals_eq_zero rfl rfl, zero_add, Expression.literals, Expression.children,
        List.map_map]
      exact LiteralCount.eq_sum_map (by simp only [literalsFields])
        (fun _ _ => by rw [literalsFields]; rfl) fields

namespace Fragment

/-- The literals of a fragment are its own and those of the fragments it is directly built from. -/
theorem literals_eq (fragment : Fragment) :
    fragment.literals = fragment.ownLiterals + (fragment.children.map literals).sum := by
  cases fragment with
  | command c => rw [ownLiterals_eq_zero rfl rfl, zero_add]; exact c.literals_eq_sum
  | expression e => exact e.literals_eq_add_sum
  | vname v => rw [ownLiterals_eq_zero rfl rfl, zero_add]; exact v.literals_eq_sum
  | argument a => rw [ownLiterals_eq_zero rfl rfl, zero_add]; exact a.literals_eq_sum
  | declaration d => rw [ownLiterals_eq_zero rfl rfl, zero_add]; exact d.literals_eq_sum
  | parameter p =>
      rw [ownLiterals_eq_zero rfl rfl, zero_add]
      cases p <;> simp [literals, children, FormalParameter.children, Function.comp_def]
  | type t =>
      rw [ownLiterals_eq_zero rfl rfl, zero_add]
      cases t <;> simp [literals, children, TypeDenoter.children, Function.comp_def]

/-- Counting fragments that are literals one by one. -/
theorem sum_ownLiterals (fragments : List Fragment) :
    (fragments.map ownLiterals).sum =
      ⟨fragments.countP isInteger, fragments.countP isCharacter⟩ := by
  induction fragments with
  | nil => rfl
  | cons first rest ih =>
      rw [List.map_cons, List.sum_cons, ih, List.countP_cons, List.countP_cons]
      ext <;> simp [ownLiterals, Nat.add_comm]

/-- The counter misses no literal and counts none twice. -/
theorem literals_eq_sum_fragments (fragment : Fragment) :
    fragment.literals = (fragment.fragments.map ownLiterals).sum := by
  induction fragment using children_induction with
  | step fragment ih =>
      have hchildren : fragment.children.map literals =
          fragment.children.map fun child => (child.fragments.map ownLiterals).sum :=
        List.map_congr_left ih
      -- the fragments are the fragment itself and those of its children, one after the other
      rw [fragments_eq, List.map_cons, List.sum_cons, literals_eq, hchildren, List.map_flatMap,
        List.flatMap_def, List.sum_flatten, List.map_map]
      rfl

end Fragment

/-! ## The count survives hoisting -/

/-- The literals in the values of constants. -/
def Constant.literalsAll (constants : List Constant) : LiteralCount :=
  (constants.map fun constant => constant.value.literals).sum

theorem Constant.literalsAll_append (first second : List Constant) :
    Constant.literalsAll (first ++ second) =
      Constant.literalsAll first + Constant.literalsAll second := by
  rw [Constant.literalsAll, List.map_append, List.sum_append, literalsAll, literalsAll]

theorem Constant.literals_reading (constant : Constant) : constant.reading.literals = 0 := by
  simp only [Constant.reading, Expression.literals, Vname.literals]

/-- The literals of a chain of constants are those of their values. -/
theorem literals_of_chain? {constants : List Constant} {chain : Declaration}
    (hchain : Declaration.chain? .dummy (constants.map Constant.declaration) = some chain) :
    chain.literals = Constant.literalsAll constants := by
  refine chain_induction ?_ ?_ hchain
  · intro constant
    simp [Constant.declaration, Declaration.literals, Constant.literalsAll]
  · intro constant rest tail ih
    rw [Declaration.literals, ih]
    simp [Constant.declaration, Declaration.literals, Constant.literalsAll]

/-- What an extraction takes out of a command is in the constants, and nothing else is. -/
theorem Extracts.literals_add {assigned : List String} {issued : Nat} {command command' : Command}
    {constants : List Constant}
    (hextract : Extracts assigned issued command command' constants) :
    command'.literals + Constant.literalsAll constants = command.literals := by
  induction hextract with
  | taken =>
      -- the literals of the value are in the constant now, and the read has none
      simp [Command.literals, Constant.literals_reading, Constant.literalsAll]
  | left | call | skip => simp [Command.literals, Constant.literalsAll]
  | ifThenElse _ _ ihThen ihElse =>
      rw [Command.literals, Command.literals, Constant.literalsAll_append, ← ihThen, ← ihElse]
      abel
  | seq _ _ ihFirst ihSecond =>
      rw [Command.literals, Command.literals, Constant.literalsAll_append, ← ihFirst, ← ihSecond]
      abel
  | letIn _ ih | whileDo _ ih => rw [Command.literals, Command.literals, ← ih, add_assoc]

theorem Hoists.literals_eq {command command' : Command} (hhoists : Hoists command command') :
    command'.literals = command.literals := by
  induction hhoists with
  | assign | call | skip => simp only [Command.literals]
  | ifThenElse _ _ ihFirst ihSecond | seq _ _ ihFirst ihSecond =>
      rw [Command.literals, ihFirst, ihSecond, Command.literals]
  | letIn _ ih => rw [Command.literals, ih, Command.literals]
  | kept hextract _ ih =>
      have hbody := hextract.literals_add
      rw [Command.literals, ih, Command.literals, ← hbody, Constant.literalsAll, List.map_nil,
        List.sum_nil, add_zero]
  | wrapped hextract hchain _ ih =>
      have hbody := hextract.literals_add
      -- what the body lost, the chain around the loop has gained
      rw [Command.literals, Command.literals, literals_of_chain? hchain, ih, Command.literals,
        ← hbody]
      abel

/-- **Literals are counted once and kept.**  The counter finds as many integer and as many character
expressions as occur anywhere in the program, and as many in the program as in its hoisted form. -/
theorem literals_counted_and_kept (program : Program) :
    program.literals.integers = program.fragments.countP Fragment.isInteger ∧
      program.literals.characters = program.fragments.countP Fragment.isCharacter ∧
      program.optimise.literals = program.literals := by
  have hcount : program.literals = ⟨program.fragments.countP Fragment.isInteger,
      program.fragments.countP Fragment.isCharacter⟩ := by
    rw [← Fragment.sum_ownLiterals]
    exact (Fragment.command program.command).literals_eq_sum_fragments
  refine ⟨by rw [hcount], by rw [hcount], ?_⟩
  exact (hoists_optimise program).literals_eq

end LoopHoist
