import LoopHoist.Proofs.Document.Parts

/-!
# Reading undoes writing

Every value that spells a document is read as this document, and what is written for a document
spells it.

## Strategy

The recursion follows the tree, for the families together, with one case for each kind: the value
is taken apart, each field is read as it is spelled, and the node is closed.  Lists of nodes are read
by `mapM`, one element after the other.

A program can also be read from the structure of a text.  There the values of all entries that do
not belong to a program are passed over before anything is read; `exists_value?_keepFields` says
that what is left spells the same.
-/

namespace LoopHoist.Document

/-! ## Leaves -/

theorem Integer.read_of_spells :
    ∀ (integer : Integer) (value : Value), integer.Spells value → readInteger value = .ok integer
  | .number n, _, rfl => by
      -- the limits of a word are those of its type
      have hword : Decimal.isWord n.toInt = true := by
        have hleast : Decimal.leastWord = -2 ^ 63 := rfl
        have hgreatest : Decimal.greatestWord = 2 ^ 63 - 1 := rfl
        have hlow := n.le_toInt
        have hhigh := n.toInt_lt
        simp only [Decimal.isWord, hleast, hgreatest, decide_eq_true_eq]
        omega
      simp only [readInteger, hword, if_true, Int64.ofInt_toInt]
  | .spelling _, _, rfl => rfl

theorem readCharacter_of_eq (c : Char) (value : Value)
    (hvalue : value = .text (String.singleton c)) : readCharacter value = .ok c := by
  simp [hvalue, readCharacter]

/-! ## The vocabulary -/

theorem typeFamily_distinct : typeFamily.Distinct := by decide

theorem formalFamily_distinct : formalFamily.Distinct := by decide

theorem vnameFamily_distinct : vnameFamily.Distinct := by decide

theorem expressionFamily_distinct : expressionFamily.Distinct := by decide

theorem actualFamily_distinct : actualFamily.Distinct := by decide

theorem declarationFamily_distinct : declarationFamily.Distinct := by decide

theorem commandFamily_distinct : commandFamily.Distinct := by decide

/-! ## Types and formal parameters -/

mutual

theorem TypeDenoter.read_of_spells :
    ∀ (type : TypeDenoter) (place : Place) (value : Value), type.Spells value →
      readType place value = .ok type
  | .simple name, place, value, hspells => by
      obtain ⟨node, hsplit, htag, hname, hclose⟩ :=
        typeFamily_distinct.exists_split place rfl hspells
      rw [readType, hsplit]
      simp only [bind, Except.bind, htag]
      -- each field is read off the node by its own law, and closing the node finds nothing left
      rw [hname.text]
      exact hclose _
  | .array length element, place, value, hspells => by
      obtain ⟨node, hsplit, htag, ⟨hlength, helement⟩, hclose⟩ :=
        typeFamily_distinct.exists_split place rfl hspells
      rw [readType, hsplit]
      simp only [bind, Except.bind, htag]
      rw [hlength.required length.read_of_spells, helement.required (element.read_of_spells .inner)]
      exact hclose _
  | .record fields, place, value, hspells => by
      obtain ⟨node, hsplit, htag, hfields, hclose⟩ :=
        typeFamily_distinct.exists_split place rfl hspells
      rw [readType, hsplit]
      simp only [bind, Except.bind, htag]
      rw [hfields.list (TypeDenoter.mapM_readTypeField fields)]
      exact hclose _

theorem TypeDenoter.mapM_readTypeField :
    ∀ (fields : List (String × TypeDenoter)) (values : List Value),
      TypeDenoter.SpellsFields fields values → values.mapM readTypeField = .ok fields
  | [], _, rfl => rfl
  | (name, type) :: rest, _, ⟨first, others, rfl, hfirst, hothers⟩ => by
      obtain ⟨node, hsplit, ⟨hname, htype⟩, hclose⟩ :=
        exists_splitGroup "FieldTypeNode" ["name", "type"] rfl (by decide) hfirst
      have hread : readTypeField first = .ok (name, type) := by
        rw [readTypeField, hsplit]
        simp only [bind, Except.bind]
        rw [hname.text, htype.required (type.read_of_spells .inner)]
        exact hclose _
      exact mapM_cons_eq_ok hread (TypeDenoter.mapM_readTypeField rest others hothers)

end

mutual

theorem FormalParameter.read_of_spells :
    ∀ (parameter : FormalParameter) (place : Place) (value : Value), parameter.Spells value →
      readFormal place value = .ok parameter
  | .const name type, place, value, hspells => by
      obtain ⟨node, hsplit, htag, ⟨hname, htype⟩, hclose⟩ :=
        formalFamily_distinct.exists_split place rfl hspells
      rw [readFormal, hsplit]
      simp only [bind, Except.bind, htag]
      rw [hname.text, htype.required (type.read_of_spells .inner)]
      exact hclose _
  | .var name type, place, value, hspells => by
      obtain ⟨node, hsplit, htag, ⟨hname, htype⟩, hclose⟩ :=
        formalFamily_distinct.exists_split place rfl hspells
      rw [readFormal, hsplit]
      simp only [bind, Except.bind, htag]
      rw [hname.text, htype.required (type.read_of_spells .inner)]
      exact hclose _
  | .proc name parameters, place, value, hspells => by
      obtain ⟨node, hsplit, htag, ⟨hname, hparameters⟩, hclose⟩ :=
        formalFamily_distinct.exists_split place rfl hspells
      rw [readFormal, hsplit]
      simp only [bind, Except.bind, htag]
      rw [hname.text, hparameters.optional (FormalParameter.mapM_readFormal parameters)]
      exact hclose _
  | .func name parameters result, place, value, hspells => by
      obtain ⟨node, hsplit, htag, ⟨hname, hparameters, hresult⟩, hclose⟩ :=
        formalFamily_distinct.exists_split place rfl hspells
      rw [readFormal, hsplit]
      simp only [bind, Except.bind, htag]
      rw [hname.text, hparameters.optional (FormalParameter.mapM_readFormal parameters),
        hresult.required (result.read_of_spells .inner)]
      exact hclose _

theorem FormalParameter.mapM_readFormal :
    ∀ (parameters : List FormalParameter) (values : List Value),
      FormalParameter.SpellsAll parameters values → values.mapM (readFormal .inner) = .ok parameters
  | [], _, rfl => rfl
  | parameter :: rest, _, ⟨first, others, rfl, hfirst, hothers⟩ =>
      mapM_cons_eq_ok (parameter.read_of_spells .inner first hfirst)
        (FormalParameter.mapM_readFormal rest others hothers)

end

/-! ## Value names, expressions, arguments, declarations and commands -/

mutual

theorem Vname.read_of_spells :
    ∀ (vname : Vname) (place : Place) (value : Value), vname.Spells value →
      readVname place value = .ok vname
  | .simple name, place, value, hspells => by
      obtain ⟨node, hsplit, htag, hname, hclose⟩ :=
        vnameFamily_distinct.exists_split place rfl hspells
      rw [readVname, hsplit]
      simp only [bind, Except.bind, htag]
      rw [hname.text]
      exact hclose _
  | .dot base field, place, value, hspells => by
      obtain ⟨node, hsplit, htag, ⟨hbase, hfield⟩, hclose⟩ :=
        vnameFamily_distinct.exists_split place rfl hspells
      rw [readVname, hsplit]
      simp only [bind, Except.bind, htag]
      rw [hbase.required (base.read_of_spells .inner), hfield.text]
      exact hclose _
  | .subscript base index, place, value, hspells => by
      obtain ⟨node, hsplit, htag, ⟨hbase, hindex⟩, hclose⟩ :=
        vnameFamily_distinct.exists_split place rfl hspells
      rw [readVname, hsplit]
      simp only [bind, Except.bind, htag]
      rw [hbase.required (base.read_of_spells .inner),
        hindex.required (index.read_of_spells .inner)]
      exact hclose _

theorem Expression.read_of_spells :
    ∀ (expression : Expression) (place : Place) (value : Value), expression.Spells value →
      readExpression place value = .ok expression
  | .empty, place, value, hspells => by
      obtain ⟨node, hsplit, htag, -, hclose⟩ :=
        expressionFamily_distinct.exists_split place rfl hspells
      rw [readExpression, hsplit]
      simp only [bind, Except.bind, htag]
      exact node.bare_eq_ok hclose _
  | .integer integer, place, value, hspells => by
      obtain ⟨node, hsplit, htag, hinteger, hclose⟩ :=
        expressionFamily_distinct.exists_split place rfl hspells
      rw [readExpression, hsplit]
      simp only [bind, Except.bind, htag]
      rw [hinteger.required integer.read_of_spells]
      exact hclose _
  | .character c, place, value, hspells => by
      obtain ⟨node, hsplit, htag, hvalue, hclose⟩ :=
        expressionFamily_distinct.exists_split place rfl hspells
      rw [readExpression, hsplit]
      simp only [bind, Except.bind, htag]
      rw [hvalue.required (readCharacter_of_eq c)]
      exact hclose _
  | .vname vname, place, value, hspells => by
      obtain ⟨node, hsplit, htag, hvname, hclose⟩ :=
        expressionFamily_distinct.exists_split place rfl hspells
      rw [readExpression, hsplit]
      simp only [bind, Except.bind, htag]
      rw [hvname.required (vname.read_of_spells .inner)]
      exact hclose _
  | .var name, place, value, hspells => by
      obtain ⟨node, hsplit, htag, hname, hclose⟩ :=
        expressionFamily_distinct.exists_split place rfl hspells
      rw [readExpression, hsplit]
      simp only [bind, Except.bind, htag]
      rw [hname.text]
      exact hclose _
  | .unary operator operand, place, value, hspells => by
      obtain ⟨node, hsplit, htag, ⟨hoperator, hoperand⟩, hclose⟩ :=
        expressionFamily_distinct.exists_split place rfl hspells
      rw [readExpression, hsplit]
      simp only [bind, Except.bind, htag]
      rw [hoperator.text, hoperand.required (operand.read_of_spells .inner)]
      exact hclose _
  | .binary operator left right, place, value, hspells => by
      obtain ⟨node, hsplit, htag, ⟨hoperator, hleft, hright⟩, hclose⟩ :=
        expressionFamily_distinct.exists_split place rfl hspells
      rw [readExpression, hsplit]
      simp only [bind, Except.bind, htag]
      rw [hoperator.text, hleft.required (left.read_of_spells .inner),
        hright.required (right.read_of_spells .inner)]
      exact hclose _
  | .ifThenElse condition thenBranch elseBranch, place, value, hspells => by
      obtain ⟨node, hsplit, htag, ⟨hcondition, hthen, helse⟩, hclose⟩ :=
        expressionFamily_distinct.exists_split place rfl hspells
      rw [readExpression, hsplit]
      simp only [bind, Except.bind, htag]
      rw [hcondition.required (condition.read_of_spells .inner),
        hthen.required (thenBranch.read_of_spells .inner),
        helse.required (elseBranch.read_of_spells .inner)]
      exact hclose _
  | .letIn declaration body, place, value, hspells => by
      obtain ⟨node, hsplit, htag, ⟨hdeclaration, hbody⟩, hclose⟩ :=
        expressionFamily_distinct.exists_split place rfl hspells
      rw [readExpression, hsplit]
      simp only [bind, Except.bind, htag]
      rw [hdeclaration.required (declaration.read_of_spells .inner),
        hbody.required (body.read_of_spells .inner)]
      exact hclose _
  | .call function arguments, place, value, hspells => by
      obtain ⟨node, hsplit, htag, ⟨hfunction, harguments⟩, hclose⟩ :=
        expressionFamily_distinct.exists_split place rfl hspells
      rw [readExpression, hsplit]
      simp only [bind, Except.bind, htag]
      rw [hfunction.text, harguments.optional (ActualParameter.mapM_readActual arguments)]
      exact hclose _
  | .array elements, place, value, hspells => by
      obtain ⟨node, hsplit, htag, helements, hclose⟩ :=
        expressionFamily_distinct.exists_split place rfl hspells
      rw [readExpression, hsplit]
      simp only [bind, Except.bind, htag]
      rw [helements.list (Expression.mapM_readExpression elements)]
      exact hclose _
  | .record fields, place, value, hspells => by
      obtain ⟨node, hsplit, htag, hfields, hclose⟩ :=
        expressionFamily_distinct.exists_split place rfl hspells
      rw [readExpression, hsplit]
      simp only [bind, Except.bind, htag]
      rw [hfields.list (Expression.mapM_readRecordField fields)]
      exact hclose _

theorem Expression.mapM_readExpression :
    ∀ (elements : List Expression) (values : List Value),
      Expression.SpellsAll elements values → values.mapM (readExpression .inner) = .ok elements
  | [], _, rfl => rfl
  | element :: rest, _, ⟨first, others, rfl, hfirst, hothers⟩ =>
      mapM_cons_eq_ok (element.read_of_spells .inner first hfirst)
        (Expression.mapM_readExpression rest others hothers)

theorem Expression.mapM_readRecordField :
    ∀ (fields : List (String × Expression)) (values : List Value),
      Expression.SpellsFields fields values → values.mapM readRecordField = .ok fields
  | [], _, rfl => rfl
  | (name, expression) :: rest, _, ⟨first, others, rfl, hfirst, hothers⟩ => by
      obtain ⟨node, hsplit, ⟨hname, hvalue⟩, hclose⟩ :=
        exists_splitGroup "RecordFieldNode" ["name", "value"] rfl (by decide) hfirst
      have hread : readRecordField first = .ok (name, expression) := by
        rw [readRecordField, hsplit]
        simp only [bind, Except.bind]
        rw [hname.text, hvalue.required (expression.read_of_spells .inner)]
        exact hclose _
      exact mapM_cons_eq_ok hread (Expression.mapM_readRecordField rest others hothers)

theorem ActualParameter.read_of_spells :
    ∀ (argument : ActualParameter) (place : Place) (value : Value), argument.Spells value →
      readActual place value = .ok argument
  | .const expression, place, value, hspells => by
      obtain ⟨node, hsplit, htag, hexpression, hclose⟩ :=
        actualFamily_distinct.exists_split place rfl hspells
      rw [readActual, hsplit]
      simp only [bind, Except.bind, htag]
      rw [hexpression.required (expression.read_of_spells .inner)]
      exact hclose _
  | .var vname, place, value, hspells => by
      obtain ⟨node, hsplit, htag, hvname, hclose⟩ :=
        actualFamily_distinct.exists_split place rfl hspells
      rw [readActual, hsplit]
      simp only [bind, Except.bind, htag]
      rw [hvname.required (vname.read_of_spells .inner)]
      exact hclose _
  | .proc name, place, value, hspells => by
      obtain ⟨node, hsplit, htag, hname, hclose⟩ :=
        actualFamily_distinct.exists_split place rfl hspells
      rw [readActual, hsplit]
      simp only [bind, Except.bind, htag]
      rw [hname.text]
      exact hclose _
  | .func name, place, value, hspells => by
      obtain ⟨node, hsplit, htag, hname, hclose⟩ :=
        actualFamily_distinct.exists_split place rfl hspells
      rw [readActual, hsplit]
      simp only [bind, Except.bind, htag]
      rw [hname.text]
      exact hclose _

theorem ActualParameter.mapM_readActual :
    ∀ (arguments : List ActualParameter) (values : List Value),
      ActualParameter.SpellsAll arguments values → values.mapM (readActual .inner) = .ok arguments
  | [], _, rfl => rfl
  | argument :: rest, _, ⟨first, others, rfl, hfirst, hothers⟩ =>
      mapM_cons_eq_ok (argument.read_of_spells .inner first hfirst)
        (ActualParameter.mapM_readActual rest others hothers)

theorem Declaration.read_of_spells :
    ∀ (declaration : Declaration) (place : Place) (value : Value), declaration.Spells value →
      readDeclaration place value = .ok declaration
  | .const name expression, place, value, hspells => by
      obtain ⟨node, hsplit, htag, ⟨hname, hexpression⟩, hclose⟩ :=
        declarationFamily_distinct.exists_split place rfl hspells
      rw [readDeclaration, hsplit]
      simp only [bind, Except.bind, htag]
      rw [hname.text, hexpression.required (expression.read_of_spells .inner)]
      exact hclose _
  | .var name type, place, value, hspells => by
      obtain ⟨node, hsplit, htag, ⟨hname, htype⟩, hclose⟩ :=
        declarationFamily_distinct.exists_split place rfl hspells
      rw [readDeclaration, hsplit]
      simp only [bind, Except.bind, htag]
      rw [hname.text, htype.required (type.read_of_spells .inner)]
      exact hclose _
  | .proc name parameters body, place, value, hspells => by
      obtain ⟨node, hsplit, htag, ⟨hname, hparameters, hbody⟩, hclose⟩ :=
        declarationFamily_distinct.exists_split place rfl hspells
      rw [readDeclaration, hsplit]
      simp only [bind, Except.bind, htag]
      rw [hname.text, hparameters.optional (FormalParameter.mapM_readFormal parameters),
        hbody.required (body.read_of_spells .inner)]
      exact hclose _
  | .func name parameters result body, place, value, hspells => by
      obtain ⟨node, hsplit, htag, ⟨hname, hparameters, hresult, hbody⟩, hclose⟩ :=
        declarationFamily_distinct.exists_split place rfl hspells
      rw [readDeclaration, hsplit]
      simp only [bind, Except.bind, htag]
      rw [hname.text, hparameters.optional (FormalParameter.mapM_readFormal parameters),
        hresult.required (result.read_of_spells .inner),
        hbody.required (body.read_of_spells .inner)]
      exact hclose _
  | .type name type, place, value, hspells => by
      obtain ⟨node, hsplit, htag, ⟨hname, htype⟩, hclose⟩ :=
        declarationFamily_distinct.exists_split place rfl hspells
      rw [readDeclaration, hsplit]
      simp only [bind, Except.bind, htag]
      rw [hname.text, htype.required (type.read_of_spells .inner)]
      exact hclose _
  | .unaryOperator operator argument result, place, value, hspells => by
      obtain ⟨node, hsplit, htag, ⟨hoperator, hargument, hresult⟩, hclose⟩ :=
        declarationFamily_distinct.exists_split place rfl hspells
      rw [readDeclaration, hsplit]
      simp only [bind, Except.bind, htag]
      rw [hoperator.text, hargument.required (argument.read_of_spells .inner),
        hresult.required (result.read_of_spells .inner)]
      exact hclose _
  | .binaryOperator operator left right result, place, value, hspells => by
      obtain ⟨node, hsplit, htag, ⟨hoperator, hleft, hright, hresult⟩, hclose⟩ :=
        declarationFamily_distinct.exists_split place rfl hspells
      rw [readDeclaration, hsplit]
      simp only [bind, Except.bind, htag]
      rw [hoperator.text, hleft.required (left.read_of_spells .inner),
        hright.required (right.read_of_spells .inner),
        hresult.required (result.read_of_spells .inner)]
      exact hclose _
  | .sequential declarations, place, value, hspells => by
      obtain ⟨node, hsplit, htag, hdeclarations, hclose⟩ :=
        declarationFamily_distinct.exists_split place rfl hspells
      rw [readDeclaration, hsplit]
      simp only [bind, Except.bind, htag]
      rw [hdeclarations.list (Declaration.mapM_readDeclaration declarations)]
      exact hclose _

theorem Declaration.mapM_readDeclaration :
    ∀ (declarations : List Declaration) (values : List Value),
      Declaration.SpellsAll declarations values →
        values.mapM (readDeclaration .inner) = .ok declarations
  | [], _, rfl => rfl
  | declaration :: rest, _, ⟨first, others, rfl, hfirst, hothers⟩ =>
      mapM_cons_eq_ok (declaration.read_of_spells .inner first hfirst)
        (Declaration.mapM_readDeclaration rest others hothers)

theorem Command.read_of_spells :
    ∀ (command : Command) (place : Place) (value : Value), command.Spells value →
      readCommand place value = .ok command
  | .assign target expression, place, value, hspells => by
      obtain ⟨node, hsplit, htag, ⟨htarget, hexpression⟩, hclose⟩ :=
        commandFamily_distinct.exists_split place rfl hspells
      rw [readCommand, hsplit]
      simp only [bind, Except.bind, htag]
      rw [htarget.required (target.read_of_spells .inner),
        hexpression.required (expression.read_of_spells .inner)]
      exact hclose _
  | .call procedure arguments, place, value, hspells => by
      obtain ⟨node, hsplit, htag, ⟨hprocedure, harguments⟩, hclose⟩ :=
        commandFamily_distinct.exists_split place rfl hspells
      rw [readCommand, hsplit]
      simp only [bind, Except.bind, htag]
      rw [hprocedure.text, harguments.optional (ActualParameter.mapM_readActual arguments)]
      exact hclose _
  | .empty, place, value, hspells => by
      obtain ⟨node, hsplit, htag, -, hclose⟩ :=
        commandFamily_distinct.exists_split place rfl hspells
      rw [readCommand, hsplit]
      simp only [bind, Except.bind, htag]
      exact node.bare_eq_ok hclose _
  | .ifThenElse condition thenBranch elseBranch, place, value, hspells => by
      obtain ⟨node, hsplit, htag, ⟨hcondition, hthen, helse⟩, hclose⟩ :=
        commandFamily_distinct.exists_split place rfl hspells
      rw [readCommand, hsplit]
      simp only [bind, Except.bind, htag]
      rw [hcondition.required (condition.read_of_spells .inner),
        hthen.required (thenBranch.read_of_spells .inner),
        helse.required (elseBranch.read_of_spells .inner)]
      exact hclose _
  | .letIn declaration body, place, value, hspells => by
      obtain ⟨node, hsplit, htag, ⟨hdeclaration, hbody⟩, hclose⟩ :=
        commandFamily_distinct.exists_split place rfl hspells
      rw [readCommand, hsplit]
      simp only [bind, Except.bind, htag]
      rw [hdeclaration.required (declaration.read_of_spells .inner),
        hbody.required (body.read_of_spells .inner)]
      exact hclose _
  | .sequential commands, place, value, hspells => by
      obtain ⟨node, hsplit, htag, hcommands, hclose⟩ :=
        commandFamily_distinct.exists_split place rfl hspells
      rw [readCommand, hsplit]
      simp only [bind, Except.bind, htag]
      rw [hcommands.list (Command.mapM_readCommand commands)]
      exact hclose _
  | .whileDo condition body, place, value, hspells => by
      obtain ⟨node, hsplit, htag, ⟨hcondition, hbody⟩, hclose⟩ :=
        commandFamily_distinct.exists_split place rfl hspells
      rw [readCommand, hsplit]
      simp only [bind, Except.bind, htag]
      rw [hcondition.required (condition.read_of_spells .inner),
        hbody.required (body.read_of_spells .inner)]
      exact hclose _

theorem Command.mapM_readCommand :
    ∀ (commands : List Command) (values : List Value),
      Command.SpellsAll commands values → values.mapM (readCommand .inner) = .ok commands
  | [], _, rfl => rfl
  | command :: rest, _, ⟨first, others, rfl, hfirst, hothers⟩ =>
      mapM_cons_eq_ok (command.read_of_spells .inner first hfirst)
        (Command.mapM_readCommand rest others hothers)

end

/-! ## Programs -/

theorem Program.read_of_spells (program : Program) (value : Value)
    (hspells : program.Spells value) : readProgram value = .ok program := by
  obtain ⟨parts, hparts, hfits⟩ :=
    exists_groupParts "ProgramNode" programForm rfl (by decide) hspells
  have hcommand : programForm.required parts "command" (readCommand .outer) = .ok program.command :=
    hfits.reads _ List.mem_cons_self (program.command.read_of_spells .outer) False.elim
  rw [readProgram, hparts]
  simp only [bind, Except.bind, readProgramFrom]
  rw [hcommand]
  exact hfits.close _ _

/-! ## Structures of texts -/

/-- Nothing in place of what stands under a name that is not among these. -/
def keepNamed (names : List String) (entry : String × Value) : String × Value :=
  (entry.1, if names.contains entry.1 then entry.2 else .null)

theorem valuesUnder_map_keepNamed {names : List String} {name : String} (hname : name ∈ names)
    (entries : List (String × Value)) :
    valuesUnder name (entries.map (keepNamed names)) = valuesUnder name entries := by
  induction entries with
  | nil => rfl
  | cons entry rest ih =>
      unfold valuesUnder at ih ⊢
      by_cases hentry : entry.1 = name
      · simp [keepNamed, hentry, hname, ih]
      · simp [keepNamed, hentry, ih]

theorem entriesWithin?_keepFields (depth : Nat) (names : List String) :
    ∀ (entries : List (Option String × Json.Tree)) (named : List (String × Value)),
      Json.Tree.entriesWithin? depth entries = some (named.map fun e => (Key.name e.1, e.2)) →
      Json.Tree.entriesWithin? depth (entries.map fun (key, tree) =>
          (key, if key.all names.contains then tree else .null)) =
        some ((named.map (keepNamed names)).map fun e => (Key.name e.1, e.2))
  | [], named, hnamed => by
      have hnil : named = [] := by simpa [Json.Tree.entriesWithin?] using hnamed
      subst hnil
      rfl
  | (key, tree) :: rest, named, hnamed => by
      simp only [Json.Tree.entriesWithin?, bind, Option.bind_eq_some_iff, pure,
        Option.some.injEq] at hnamed
      obtain ⟨name, rfl, value, hvalue, others, hothers, hcons⟩ := hnamed
      obtain ⟨⟨name', value'⟩, named', rfl, hhead, rfl⟩ := List.map_eq_cons_iff.mp hcons.symm
      obtain ⟨hname, rfl⟩ := Prod.mk.inj hhead
      obtain rfl := Key.name.inj hname
      have hrest := entriesWithin?_keepFields depth names rest named' hothers
      -- A value that is passed over is a null, which stands at any depth.
      by_cases hkept : name' ∈ names
      · simp [Json.Tree.entriesWithin?, hrest, hvalue, keepNamed, hkept]
      · simp [Json.Tree.entriesWithin?, Json.Tree.valueWithin?, hrest, keepNamed, hkept]

/-- Passing over what stands under other names leaves a value that spells the same fields. -/
theorem exists_value?_keepFields {fields : List FieldSpelling} (names : List String)
    (hnames : names = fields.map FieldSpelling.name) {tree : Json.Tree} {value : Value}
    (hvalue : tree.value? = some value) (hspells : SpellsGroup none fields value) :
    ∃ value', (tree.keepFields names).value? = some value' ∧ SpellsGroup none fields value' := by
  cases tree with
  | object entries =>
      obtain ⟨pairs, hpairs, hmapping⟩ : ∃ pairs,
          Json.Tree.entriesWithin? (Json.Tree.nestingLimit - 1) entries = some pairs ∧
            Value.mapping pairs = value := by
        simpa [Json.Tree.value?, Json.Tree.valueWithin?, Json.Tree.nestingLimit] using hvalue
      cases hspells with
      | @named named _ hfields =>
          -- passing over keeps the entries under the names that the fields ask for
          obtain rfl := Value.mapping.inj hmapping
          have hkept := entriesWithin?_keepFields _ names entries named hpairs
          refine ⟨.ofFields (named.map (keepNamed names)), ?_,
            .named (by simp) fun field hfield => ?_⟩
          · rw [Json.Tree.value?, Json.Tree.keepFields, Json.Tree.valueWithin?, hkept]
            rfl
          · rw [valuesUnder_map_keepNamed (hnames ▸ List.mem_map_of_mem hfield)]
            exact hfields field hfield
      -- a sequence is no object
      | placed => simp at hmapping
  | null | boolean _ | number _ | text _ | array _ => exact ⟨value, hvalue, hspells⟩

theorem Program.ofTree_of_spells (program : Program) {tree : Json.Tree} {value : Value}
    (hvalue : tree.value? = some value) (hspells : program.Spells value) :
    Reader.program.ofTree tree = .ok program := by
  obtain ⟨value', hkept, hspells'⟩ := exists_value?_keepFields programForm.fields rfl hvalue hspells
  have hread := program.read_of_spells value' hspells'
  simp only [Reader.ofTree, Reader.program, hkept, Option.map_some, hread]

/-- Every value that spells a program is read as this program, also from the structure of a text,
where what stands under other names than those of a program is passed over first.  What is written
spells the program, so reading undoes writing. -/
theorem readProgram_of_spells (program : Program) :
    (∀ value, program.Spells value → readProgram value = .ok program) ∧
      (∀ (tree : Json.Tree) (value : Value), tree.value? = some value → program.Spells value →
        Reader.program.ofTree tree = .ok program) ∧
      program.Spells program.write ∧ readProgram program.write = .ok program :=
  ⟨program.read_of_spells, fun _ _ => program.ofTree_of_spells, program.spells_write,
    program.read_of_spells _ program.spells_write⟩

/-- Two calls and an assignment. -/
def threeCommands : Program :=
  ⟨.sequential
    [.call "p" [], .call "q" [], .assign (.simple "x") (.integer (.number 7))]⟩

/-- The same in both forms, out of order, with more than there is to say and with the arguments left
out. -/
def threeCommandsValue : Value :=
  .ofFields
    [("note", .null),
      ("command", .sequence
        [.text "sequential",
          .sequence
            [.sequence [.text "call", .text "p"],
              .ofFields [("procedure", .text "q"), ("line", .integer 2), ("kind", .text "call")],
              .sequence
                [.text "assign", .ofFields [("name", .text "x"), ("kind", .text "simple")],
                  .ofFields [("kind", .text "integer"), ("value", .integer 7)]]]])]

theorem threeCommands_spells : threeCommands.Spells threeCommandsValue := by
  refine .named (by simp) ?_
  suffices hcommand : threeCommands.command.Spells _ by
    simpa [FieldSpelling.required, valuesUnder] using hcommand
  refine .placed (List.append_nil _).symm
    (.cons ⟨_, rfl, _, _, rfl, ?_, _, _, rfl, ?_, _, _, rfl,
      .placed (List.append_nil _).symm (.cons ?_ (.cons ?_ .nil)) (by simp), rfl⟩ .nil) (by simp)
  · refine .placed (show _ = [_] ++ [_] from rfl) (.cons rfl .nil) ?_
    simp [FieldSpelling.optional]
  all_goals
    refine .named (by simp [valuesUnder]) ?_
    simp [FieldSpelling.text, FieldSpelling.required, FieldSpelling.optional, valuesUnder,
      Integer.Spells]

theorem readProgram_of_spells_threeCommands :
    threeCommands.Spells threeCommandsValue ∧
      readProgram threeCommandsValue = .ok threeCommands :=
  ⟨threeCommands_spells, (readProgram_of_spells threeCommands).1 _ threeCommands_spells⟩

end LoopHoist.Document
