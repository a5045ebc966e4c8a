import LoopHoist.Proofs.Document.Lowered

/-!
# The trees that documents are lowered into

A document says less than a tree: it has no spans, and it has lists where a tree has pairs.  Still
every well-formed tree that carries one span can be had from a document.  `toDocument` writes a pair
as a list of two, and the document that it gives is lowered into the very tree it was made of, at
the span that the tree carries (`lower_toDocument`).  So lowering produces exactly the well-formed
trees (`exists_lower_eq_ok_iff`).
-/

namespace LoopHoist

variable {span : Span}

attribute [local simp] Vname.span Expression.span Declaration.span Command.span FormalParameter.name

/-! ## A document for a tree -/

/-- The character that a character literal stands for. -/
def Terminal.quoted (literal : CharacterLiteral) : Char := literal.spelling.toList.getD 1 ' '

mutual

/-- A document that says what a type says. -/
def TypeDenoter.toDocument : TypeDenoter → Document.TypeDenoter
  | .simple name => .simple name.spelling
  | .array length element => .array (.spelling length.spelling) element.toDocument
  | .record fields => .record (TypeDenoter.toDocumentFields fields)

/-- Documents that say what the fields of a record type say. -/
def TypeDenoter.toDocumentFields :
    List (Identifier × TypeDenoter) → List (String × Document.TypeDenoter)
  | [] => []
  | (name, type) :: rest => (name.spelling, type.toDocument) :: TypeDenoter.toDocumentFields rest

end

mutual

/-- A document that says what a formal parameter says. -/
def FormalParameter.toDocument : FormalParameter → Document.FormalParameter
  | .const name type => .const name.spelling type.toDocument
  | .var name type => .var name.spelling type.toDocument
  | .proc name parameters => .proc name.spelling (FormalParameter.toDocuments parameters)
  | .func name parameters result =>
      .func name.spelling (FormalParameter.toDocuments parameters) result.toDocument

/-- Documents that say what formal parameters say. -/
def FormalParameter.toDocuments : List FormalParameter → List Document.FormalParameter
  | [] => []
  | parameter :: rest => parameter.toDocument :: FormalParameter.toDocuments rest

end

mutual

/-- A document that says what a value name says. -/
def Vname.toDocument : Vname → Document.Vname
  | .simple name _ => .simple name.spelling
  | .dot base field _ => .dot base.toDocument field.spelling
  | .subscript base index _ => .subscript base.toDocument index.toDocument

/-- A document that says what an expression says. -/
def Expression.toDocument : Expression → Document.Expression
  | .empty _ => .empty
  | .integer literal _ => .integer (.spelling literal.spelling)
  | .character literal _ => .character literal.quoted
  | .read vname _ => .vname vname.toDocument
  | .unary operator operand _ => .unary operator.spelling operand.toDocument
  | .binary operator left right _ =>
      .binary operator.spelling left.toDocument right.toDocument
  | .ifThenElse condition thenBranch elseBranch _ =>
      .ifThenElse condition.toDocument thenBranch.toDocument elseBranch.toDocument
  | .letIn declaration body _ => .letIn declaration.toDocument body.toDocument
  | .call function arguments _ => .call function.spelling (ActualParameter.toDocuments arguments)
  | .array elements _ => .array (Expression.toDocuments elements)
  | .record fields _ => .record (Expression.toDocumentFields fields)

/-- Documents that say what expressions say. -/
def Expression.toDocuments : List Expression → List Document.Expression
  | [] => []
  | element :: rest => element.toDocument :: Expression.toDocuments rest

/-- Documents that say what the fields of a record say. -/
def Expression.toDocumentFields :
    List (Identifier × Expression) → List (String × Document.Expression)
  | [] => []
  | (name, value) :: rest => (name.spelling, value.toDocument) :: Expression.toDocumentFields rest

/-- A document that says what an argument says. -/
def ActualParameter.toDocument : ActualParameter → Document.ActualParameter
  | .const value => .const value.toDocument
  | .var vname => .var vname.toDocument
  | .proc name => .proc name.spelling
  | .func name => .func name.spelling

/-- Documents that say what arguments say. -/
def ActualParameter.toDocuments : List ActualParameter → List Document.ActualParameter
  | [] => []
  | argument :: rest => argument.toDocument :: ActualParameter.toDocuments rest

/-- A document that says what a declaration says. -/
def Declaration.toDocument : Declaration → Document.Declaration
  | .const name value _ => .const name.spelling value.toDocument
  | .var name type _ => .var name.spelling type.toDocument
  | .proc name parameters body _ =>
      .proc name.spelling (FormalParameter.toDocuments parameters) body.toDocument
  | .func name parameters result body _ =>
      .func name.spelling (FormalParameter.toDocuments parameters) result.toDocument
        body.toDocument
  | .type name type _ => .type name.spelling type.toDocument
  | .unaryOperator operator argument result _ =>
      .unaryOperator operator.spelling argument.toDocument result.toDocument
  | .binaryOperator operator left right result _ =>
      .binaryOperator operator.spelling left.toDocument right.toDocument result.toDocument
  | .seq first second _ => .sequential [first.toDocument, second.toDocument]

/-- A document that says what a command says. -/
def Command.toDocument : Command → Document.Command
  | .assign target value _ => .assign target.toDocument value.toDocument
  | .call procedure arguments _ => .call procedure.spelling (ActualParameter.toDocuments arguments)
  | .skip _ => .empty
  | .ifThenElse condition thenBranch elseBranch _ =>
      .ifThenElse condition.toDocument thenBranch.toDocument elseBranch.toDocument
  | .letIn declaration body _ => .letIn declaration.toDocument body.toDocument
  | .seq first second _ => .sequential [first.toDocument, second.toDocument]
  | .whileDo condition body _ => .whileDo condition.toDocument body.toDocument

end

/-! ## Lowering that document -/

open Document (named Yields)
open Fragment (everywhere_iff)

theorem Terminal.IsLowered.named_eq {sort : Lexeme} {leaf : Terminal sort}
    (hsort : leaf.WellSpelled → leaf.spelling ≠ "") (hleaf : leaf.IsLowered span) :
    named span leaf.spelling = .ok leaf := by
  obtain ⟨hspelling, rfl⟩ := hleaf
  unfold named
  rw [if_neg (by simpa using hsort hspelling)]

theorem Terminal.IsLowered.identifier_eq {name : Identifier} (hname : name.IsLowered span) :
    named span name.spelling = .ok name :=
  hname.named_eq fun hspelling => hspelling

theorem Terminal.IsLowered.operator_eq {operator : Operator} (hoperator : operator.IsLowered span) :
    named span operator.spelling = .ok operator :=
  hoperator.named_eq fun hspelling => hspelling

theorem Terminal.IsLowered.integer_eq {literal : IntegerLiteral}
    (hliteral : literal.IsLowered span) :
    (Document.Integer.spelling literal.spelling).lower span = .ok literal := by
  obtain ⟨hspelling, rfl⟩ := hliteral
  exact if_pos (Document.isNumeral_iff.mpr hspelling)

theorem Terminal.IsLowered.character_eq {literal : CharacterLiteral}
    (hliteral : literal.IsLowered span) :
    Document.lowerCharacter span literal.quoted = literal := by
  obtain ⟨⟨c, hspelling⟩, rfl⟩ := hliteral
  -- the character stands in the middle of the three that the literal is spelled with
  have hquoted : literal.quoted = c := by
    unfold Terminal.quoted
    rw [hspelling]
    simp
  rw [Document.lowerCharacter, hquoted, ← hspelling]

mutual

theorem TypeDenoter.lower_toDocument : ∀ {tree : TypeDenoter},
    (Fragment.type tree).AllLowered span → tree.toDocument.lower span = .ok tree
  | .simple name, htree => by
      have hname : name.IsLowered span := by simpa using everywhere_iff.mp htree
      simp only [TypeDenoter.toDocument, Document.TypeDenoter.lower, hname.identifier_eq]
      rfl
  | .array length element, htree => by
      obtain ⟨hlength, helement⟩ : length.IsLowered span ∧
          (Fragment.type element).AllLowered span := by
        simpa [and_assoc] using everywhere_iff.mp htree
      simp only [TypeDenoter.toDocument, Document.TypeDenoter.lower, hlength.integer_eq,
        TypeDenoter.lower_toDocument helement]
      rfl
  | .record fields, htree => by
      obtain ⟨⟨-, hnames⟩, hparts⟩ := everywhere_iff.mp htree
      have hfields := TypeDenoter.lowerFields_toDocumentFields
        (fun field hmem => hnames _ (List.mem_map_of_mem hmem)) (List.forall_mem_map.mp hparts)
      simp only [TypeDenoter.toDocument, Document.TypeDenoter.lower, hfields]
      rfl

theorem TypeDenoter.lowerFields_toDocumentFields : ∀ {fields : List (Identifier × TypeDenoter)},
    (∀ field ∈ fields, field.1.IsLowered span) →
    (∀ field ∈ fields, (Fragment.type field.2).AllLowered span) →
    Document.TypeDenoter.lowerFields span (TypeDenoter.toDocumentFields fields) = .ok fields
  | [], _, _ => rfl
  | (name, type) :: rest, hnames, hparts => by
      obtain ⟨hname, hnames⟩ := List.forall_mem_cons.mp hnames
      obtain ⟨htype, hparts⟩ := List.forall_mem_cons.mp hparts
      simp only [TypeDenoter.toDocumentFields, Document.TypeDenoter.lowerFields,
        hname.identifier_eq, TypeDenoter.lower_toDocument htype,
        TypeDenoter.lowerFields_toDocumentFields hnames hparts]
      rfl

end

mutual

theorem FormalParameter.lower_toDocument : ∀ {tree : FormalParameter},
    (Fragment.parameter tree).AllLowered span → tree.toDocument.lower span = .ok tree
  | .const name type, htree => by
      obtain ⟨hname, htype⟩ : name.IsLowered span ∧ (Fragment.type type).AllLowered span := by
        simpa [and_assoc] using everywhere_iff.mp htree
      simp only [FormalParameter.toDocument, Document.FormalParameter.lower, hname.identifier_eq,
        TypeDenoter.lower_toDocument htype]
      rfl
  | .var name type, htree => by
      obtain ⟨hname, htype⟩ : name.IsLowered span ∧ (Fragment.type type).AllLowered span := by
        simpa [and_assoc] using everywhere_iff.mp htree
      simp only [FormalParameter.toDocument, Document.FormalParameter.lower, hname.identifier_eq,
        TypeDenoter.lower_toDocument htype]
      rfl
  | .proc name parameters, htree => by
      obtain ⟨hname, hparameters⟩ : name.IsLowered span ∧ ∀ part ∈ parameters,
          (Fragment.parameter part).AllLowered span := by
        simpa [and_assoc] using everywhere_iff.mp htree
      simp only [FormalParameter.toDocument, Document.FormalParameter.lower, hname.identifier_eq,
        FormalParameter.lowerAll_toDocuments hparameters]
      rfl
  | .func name parameters result, htree => by
      obtain ⟨⟨-, hname⟩, hparts⟩ := everywhere_iff.mp htree
      obtain ⟨hparameters, hresult⟩ := List.forall_mem_append.mp hparts
      have hname : name.IsLowered span := by simpa using hname
      have hparameters := FormalParameter.lowerAll_toDocuments (List.forall_mem_map.mp hparameters)
      have hresult := TypeDenoter.lower_toDocument (List.forall_mem_singleton.mp hresult)
      simp only [FormalParameter.toDocument, Document.FormalParameter.lower, hname.identifier_eq,
        hparameters, hresult]
      rfl

theorem FormalParameter.lowerAll_toDocuments : ∀ {trees : List FormalParameter},
    (∀ tree ∈ trees, (Fragment.parameter tree).AllLowered span) →
    Document.FormalParameter.lowerAll span (FormalParameter.toDocuments trees) = .ok trees
  | [], _ => rfl
  | tree :: rest, htrees => by
      obtain ⟨htree, hrest⟩ := List.forall_mem_cons.mp htrees
      simp only [FormalParameter.toDocuments, Document.FormalParameter.lowerAll,
        FormalParameter.lower_toDocument htree, FormalParameter.lowerAll_toDocuments hrest]
      rfl

end

mutual

theorem Vname.lower_toDocument : ∀ {tree : Vname},
    (Fragment.vname tree).AllLowered span → tree.toDocument.lower span = .ok tree
  | .simple name own, htree => by
      obtain ⟨hown, hname⟩ : own = span ∧ name.IsLowered span := by
        simpa [and_assoc] using everywhere_iff.mp htree
      simp only [Vname.toDocument, Document.Vname.lower, hown, hname.identifier_eq]
      rfl
  | .dot base field own, htree => by
      obtain ⟨hown, hfield, hbase⟩ : own = span ∧ field.IsLowered span ∧
          (Fragment.vname base).AllLowered span := by
        simpa [and_assoc] using everywhere_iff.mp htree
      simp only [Vname.toDocument, Document.Vname.lower, hown, hfield.identifier_eq,
        Vname.lower_toDocument hbase]
      rfl
  | .subscript base index own, htree => by
      obtain ⟨hown, hbase, hindex⟩ : own = span ∧ (Fragment.vname base).AllLowered span ∧
          (Fragment.expression index).AllLowered span := by
        simpa [and_assoc] using everywhere_iff.mp htree
      simp only [Vname.toDocument, Document.Vname.lower, hown, Vname.lower_toDocument hbase,
        Expression.lower_toDocument hindex]
      rfl

theorem Expression.lower_toDocument : ∀ {tree : Expression},
    (Fragment.expression tree).AllLowered span → tree.toDocument.lower span = .ok tree
  | .empty own, htree => by
      have hown : own = span := by simpa using everywhere_iff.mp htree
      rw [hown]
      rfl
  | .integer literal own, htree => by
      obtain ⟨hown, hliteral⟩ : own = span ∧ literal.IsLowered span := by
        simpa [and_assoc] using everywhere_iff.mp htree
      simp only [Expression.toDocument, Document.Expression.lower, hown, hliteral.integer_eq]
      rfl
  | .character literal own, htree => by
      obtain ⟨hown, hliteral⟩ : own = span ∧ literal.IsLowered span := by
        simpa using everywhere_iff.mp htree
      simp only [Expression.toDocument, Document.Expression.lower, hown, hliteral.character_eq]
  | .read vname own, htree => by
      obtain ⟨hown, hvname⟩ : own = span ∧ (Fragment.vname vname).AllLowered span := by
        simpa [and_assoc] using everywhere_iff.mp htree
      simp only [Expression.toDocument, Document.Expression.lower, hown,
        Vname.lower_toDocument hvname]
      rfl
  | .unary operator operand own, htree => by
      obtain ⟨hown, hoperator, hoperand⟩ : own = span ∧ operator.IsLowered span ∧
          (Fragment.expression operand).AllLowered span := by
        simpa [and_assoc] using everywhere_iff.mp htree
      simp only [Expression.toDocument, Document.Expression.lower, hown, hoperator.operator_eq,
        Expression.lower_toDocument hoperand]
      rfl
  | .binary operator left right own, htree => by
      obtain ⟨hown, hoperator, hleft, hright⟩ : own = span ∧ operator.IsLowered span ∧
          (Fragment.expression left).AllLowered span ∧
          (Fragment.expression right).AllLowered span := by
        simpa [and_assoc] using everywhere_iff.mp htree
      simp only [Expression.toDocument, Document.Expression.lower, hown, hoperator.operator_eq,
        Expression.lower_toDocument hleft, Expression.lower_toDocument hright]
      rfl
  | .ifThenElse condition thenBranch elseBranch own, htree => by
      obtain ⟨hown, hcondition, hthen, helse⟩ : own = span ∧
          (Fragment.expression condition).AllLowered span ∧
          (Fragment.expression thenBranch).AllLowered span ∧
          (Fragment.expression elseBranch).AllLowered span := by
        simpa [and_assoc] using everywhere_iff.mp htree
      simp only [Expression.toDocument, Document.Expression.lower, hown,
        Expression.lower_toDocument hcondition, Expression.lower_toDocument hthen,
        Expression.lower_toDocument helse]
      rfl
  | .letIn declaration body own, htree => by
      obtain ⟨hown, hdeclaration, hbody⟩ : own = span ∧
          (Fragment.declaration declaration).AllLowered span ∧
          (Fragment.expression body).AllLowered span := by
        simpa [and_assoc] using everywhere_iff.mp htree
      simp only [Expression.toDocument, Document.Expression.lower, hown,
        Declaration.lower_toDocument hdeclaration, Expression.lower_toDocument hbody]
      rfl
  | .call function arguments own, htree => by
      obtain ⟨hown, hfunction, harguments⟩ : own = span ∧ function.IsLowered span ∧
          ∀ part ∈ arguments, (Fragment.argument part).AllLowered span := by
        simpa [and_assoc] using everywhere_iff.mp htree
      simp only [Expression.toDocument, Document.Expression.lower, hown, hfunction.identifier_eq,
        ActualParameter.lowerAll_toDocuments harguments]
      rfl
  | .array elements own, htree => by
      obtain ⟨hown, helements⟩ : own = span ∧ ∀ part ∈ elements,
          (Fragment.expression part).AllLowered span := by
        simpa [and_assoc] using everywhere_iff.mp htree
      simp only [Expression.toDocument, Document.Expression.lower, hown,
        Expression.lowerAll_toDocuments helements]
      rfl
  | .record fields own, htree => by
      obtain ⟨⟨hown, hnames⟩, hparts⟩ := everywhere_iff.mp htree
      have hown : own = span := by simpa using hown
      have hfields := Expression.lowerFields_toDocumentFields
        (fun field hmem => hnames _ (List.mem_map_of_mem hmem)) (List.forall_mem_map.mp hparts)
      simp only [Expression.toDocument, Document.Expression.lower, hfields, hown]
      rfl

theorem Expression.lowerAll_toDocuments : ∀ {trees : List Expression},
    (∀ tree ∈ trees, (Fragment.expression tree).AllLowered span) →
    Document.Expression.lowerAll span (Expression.toDocuments trees) = .ok trees
  | [], _ => rfl
  | tree :: rest, htrees => by
      obtain ⟨htree, hrest⟩ := List.forall_mem_cons.mp htrees
      simp only [Expression.toDocuments, Document.Expression.lowerAll,
        Expression.lower_toDocument htree, Expression.lowerAll_toDocuments hrest]
      rfl

theorem Expression.lowerFields_toDocumentFields : ∀ {fields : List (Identifier × Expression)},
    (∀ field ∈ fields, field.1.IsLowered span) →
    (∀ field ∈ fields, (Fragment.expression field.2).AllLowered span) →
    Document.Expression.lowerFields span (Expression.toDocumentFields fields) = .ok fields
  | [], _, _ => rfl
  | (name, value) :: rest, hnames, hparts => by
      obtain ⟨hname, hnames⟩ := List.forall_mem_cons.mp hnames
      obtain ⟨hvalue, hparts⟩ := List.forall_mem_cons.mp hparts
      simp only [Expression.toDocumentFields, Document.Expression.lowerFields, hname.identifier_eq,
        Expression.lower_toDocument hvalue, Expression.lowerFields_toDocumentFields hnames hparts]
      rfl

theorem ActualParameter.lower_toDocument : ∀ {tree : ActualParameter},
    (Fragment.argument tree).AllLowered span → tree.toDocument.lower span = .ok tree
  | .const value, htree => by
      have hvalue : (Fragment.expression value).AllLowered span := by
        simpa using everywhere_iff.mp htree
      simp only [ActualParameter.toDocument, Document.ActualParameter.lower,
        Expression.lower_toDocument hvalue]
      rfl
  | .var vname, htree => by
      have hvname : (Fragment.vname vname).AllLowered span := by simpa using everywhere_iff.mp htree
      simp only [ActualParameter.toDocument, Document.ActualParameter.lower,
        Vname.lower_toDocument hvname]
      rfl
  | .proc name, htree => by
      have hname : name.IsLowered span := by simpa using everywhere_iff.mp htree
      simp only [ActualParameter.toDocument, Document.ActualParameter.lower, hname.identifier_eq]
      rfl
  | .func name, htree => by
      have hname : name.IsLowered span := by simpa using everywhere_iff.mp htree
      simp only [ActualParameter.toDocument, Document.ActualParameter.lower, hname.identifier_eq]
      rfl

theorem ActualParameter.lowerAll_toDocuments : ∀ {trees : List ActualParameter},
    (∀ tree ∈ trees, (Fragment.argument tree).AllLowered span) →
    Document.ActualParameter.lowerAll span (ActualParameter.toDocuments trees) = .ok trees
  | [], _ => rfl
  | tree :: rest, htrees => by
      obtain ⟨htree, hrest⟩ := List.forall_mem_cons.mp htrees
      simp only [ActualParameter.toDocuments, Document.ActualParameter.lowerAll,
        ActualParameter.lower_toDocument htree, ActualParameter.lowerAll_toDocuments hrest]
      rfl

theorem Declaration.lower_toDocument : ∀ {tree : Declaration},
    (Fragment.declaration tree).AllLowered span → tree.toDocument.lower span = .ok tree
  | .const name value own, htree => by
      obtain ⟨hown, hname, hvalue⟩ : own = span ∧ name.IsLowered span ∧
          (Fragment.expression value).AllLowered span := by
        simpa [and_assoc] using everywhere_iff.mp htree
      simp only [Declaration.toDocument, Document.Declaration.lower, hown, hname.identifier_eq,
        Expression.lower_toDocument hvalue]
      rfl
  | .var name type own, htree => by
      obtain ⟨hown, hname, htype⟩ : own = span ∧ name.IsLowered span ∧
          (Fragment.type type).AllLowered span := by
        simpa [and_assoc] using everywhere_iff.mp htree
      simp only [Declaration.toDocument, Document.Declaration.lower, hown, hname.identifier_eq,
        TypeDenoter.lower_toDocument htype]
      rfl
  | .proc name parameters body own, htree => by
      obtain ⟨hleaves, hparts⟩ := everywhere_iff.mp htree
      obtain ⟨hparameters, hbody⟩ := List.forall_mem_append.mp hparts
      obtain ⟨hown, hname⟩ : own = span ∧ name.IsLowered span := by simpa using hleaves
      have hparameters := FormalParameter.lowerAll_toDocuments (List.forall_mem_map.mp hparameters)
      have hbody := Command.lower_toDocument (List.forall_mem_singleton.mp hbody)
      simp only [Declaration.toDocument, Document.Declaration.lower, hown, hname.identifier_eq,
        hparameters, hbody]
      rfl
  | .func name parameters result body own, htree => by
      obtain ⟨hleaves, hparts⟩ := everywhere_iff.mp htree
      obtain ⟨hparameters, hrest⟩ := List.forall_mem_append.mp hparts
      obtain ⟨hown, hname⟩ : own = span ∧ name.IsLowered span := by simpa using hleaves
      obtain ⟨hresult, hbody⟩ := List.forall_mem_cons.mp hrest
      have hbody := Expression.lower_toDocument (List.forall_mem_singleton.mp hbody)
      have hparameters := FormalParameter.lowerAll_toDocuments (List.forall_mem_map.mp hparameters)
      simp only [Declaration.toDocument, Document.Declaration.lower, hown, hname.identifier_eq,
        hparameters, TypeDenoter.lower_toDocument hresult, hbody]
      rfl
  | .type name type own, htree => by
      obtain ⟨hown, hname, htype⟩ : own = span ∧ name.IsLowered span ∧
          (Fragment.type type).AllLowered span := by
        simpa [and_assoc] using everywhere_iff.mp htree
      simp only [Declaration.toDocument, Document.Declaration.lower, hown, hname.identifier_eq,
        TypeDenoter.lower_toDocument htype]
      rfl
  | .unaryOperator operator argument result own, htree => by
      obtain ⟨hown, hoperator, hargument, hresult⟩ : own = span ∧ operator.IsLowered span ∧
          (Fragment.type argument).AllLowered span ∧ (Fragment.type result).AllLowered span := by
        simpa [and_assoc] using everywhere_iff.mp htree
      simp only [Declaration.toDocument, Document.Declaration.lower, hown, hoperator.operator_eq,
        TypeDenoter.lower_toDocument hargument, TypeDenoter.lower_toDocument hresult]
      rfl
  | .binaryOperator operator left right result own, htree => by
      obtain ⟨hown, hoperator, hleft, hright, hresult⟩ : own = span ∧ operator.IsLowered span ∧
          (Fragment.type left).AllLowered span ∧ (Fragment.type right).AllLowered span ∧
          (Fragment.type result).AllLowered span := by
        simpa [and_assoc] using everywhere_iff.mp htree
      simp only [Declaration.toDocument, Document.Declaration.lower, hown, hoperator.operator_eq,
        TypeDenoter.lower_toDocument hleft, TypeDenoter.lower_toDocument hright,
        TypeDenoter.lower_toDocument hresult]
      rfl
  | .seq first second own, htree => by
      obtain ⟨hown, hfirst, hsecond⟩ : own = span ∧ (Fragment.declaration first).AllLowered span ∧
          (Fragment.declaration second).AllLowered span := by
        simpa using everywhere_iff.mp htree
      -- a sequence of two is the chain of its two parts, so no nesting is lost
      simp only [Declaration.toDocument, Document.Declaration.lower, Document.Declaration.lowerAll,
        hown, Declaration.lower_toDocument hfirst, Declaration.lower_toDocument hsecond]
      rfl

theorem Command.lower_toDocument : ∀ {tree : Command},
    (Fragment.command tree).AllLowered span → tree.toDocument.lower span = .ok tree
  | .assign target value own, htree => by
      obtain ⟨hown, htarget, hvalue⟩ : own = span ∧ (Fragment.vname target).AllLowered span ∧
          (Fragment.expression value).AllLowered span := by
        simpa [and_assoc] using everywhere_iff.mp htree
      simp only [Command.toDocument, Document.Command.lower, hown, Vname.lower_toDocument htarget,
        Expression.lower_toDocument hvalue]
      rfl
  | .call procedure arguments own, htree => by
      obtain ⟨hown, hprocedure, harguments⟩ : own = span ∧ procedure.IsLowered span ∧
          ∀ part ∈ arguments, (Fragment.argument part).AllLowered span := by
        simpa [and_assoc] using everywhere_iff.mp htree
      simp only [Command.toDocument, Document.Command.lower, hown, hprocedure.identifier_eq,
        ActualParameter.lowerAll_toDocuments harguments]
      rfl
  | .skip own, htree => by
      have hown : own = span := by simpa using everywhere_iff.mp htree
      rw [hown]
      rfl
  | .ifThenElse condition thenBranch elseBranch own, htree => by
      obtain ⟨hown, hcondition, hthen, helse⟩ : own = span ∧
          (Fragment.expression condition).AllLowered span ∧
          (Fragment.command thenBranch).AllLowered span ∧
          (Fragment.command elseBranch).AllLowered span := by
        simpa [and_assoc] using everywhere_iff.mp htree
      simp only [Command.toDocument, Document.Command.lower, hown,
        Expression.lower_toDocument hcondition, Command.lower_toDocument hthen,
        Command.lower_toDocument helse]
      rfl
  | .letIn declaration body own, htree => by
      obtain ⟨hown, hdeclaration, hbody⟩ : own = span ∧
          (Fragment.declaration declaration).AllLowered span ∧
          (Fragment.command body).AllLowered span := by
        simpa [and_assoc] using everywhere_iff.mp htree
      simp only [Command.toDocument, Document.Command.lower, hown,
        Declaration.lower_toDocument hdeclaration, Command.lower_toDocument hbody]
      rfl
  | .seq first second own, htree => by
      obtain ⟨hown, hfirst, hsecond⟩ : own = span ∧ (Fragment.command first).AllLowered span ∧
          (Fragment.command second).AllLowered span := by
        simpa using everywhere_iff.mp htree
      simp only [Command.toDocument, Document.Command.lower, Document.Command.lowerAll, hown,
        Command.lower_toDocument hfirst, Command.lower_toDocument hsecond]
      rfl
  | .whileDo condition body own, htree => by
      obtain ⟨hown, hcondition, hbody⟩ : own = span ∧
          (Fragment.expression condition).AllLowered span ∧
          (Fragment.command body).AllLowered span := by
        simpa [and_assoc] using everywhere_iff.mp htree
      simp only [Command.toDocument, Document.Command.lower, hown,
        Expression.lower_toDocument hcondition, Command.lower_toDocument hbody]
      rfl

end

/-- **Lowering produces exactly the well-formed trees.**  A program is what some document is lowered
into at a span if and only if it is well formed and carries that span, as do all nodes and leaves in
it. -/
theorem exists_lower_eq_ok_iff (span : Span) (program : Program) :
    (∃ document : Document.Program, document.lower span = .ok program) ↔
      program.WellFormed ∧ program.Carries span := by
  rw [Program.wellFormed_and_carries_iff]
  constructor
  · rintro ⟨document, hlower⟩
    -- lowering gives nothing but such trees, whatever the document
    have hyields : Yields (document.lower span) fun tree =>
        tree.span = span ∧ (Fragment.command tree.command).AllLowered span :=
      .bind document.command.yields_lower fun _ hcommand => .ok ⟨rfl, hcommand⟩
    exact hyields program hlower
  · rintro ⟨hspan, hcommand⟩
    -- and the document that says what the tree says is lowered to the tree
    refine ⟨⟨program.command.toDocument⟩, ?_⟩
    have hlower := Command.lower_toDocument hcommand
    simp only [Document.Program.lower, hlower]
    rw [← hspan]
    rfl

end LoopHoist
