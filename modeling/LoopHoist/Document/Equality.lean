import LoopHoist.Document.Tree

/-!
# Equality of documents is decidable

Two documents are compared node by node, as trees are.  An integer given as a number differs from the
same integer given by its spelling, and the shorthand for a read differs from the read itself.
-/

namespace LoopHoist.Document

/-! ## Types and formal parameters -/

mutual

/-- Whether two types are equal. -/
def TypeDenoter.same : TypeDenoter → TypeDenoter → Bool
  | .simple n, .simple n' => n == n'
  | .array l t, .array l' t' => l == l' && t.same t'
  | .record fs, .record fs' => TypeDenoter.sameFields fs fs'
  | _, _ => false

/-- Whether two lists of named types are equal. -/
def TypeDenoter.sameFields : List (String × TypeDenoter) → List (String × TypeDenoter) → Bool
  | [], [] => true
  | (n, x) :: fs, (n', x') :: fs' => n == n' && x.same x' && TypeDenoter.sameFields fs fs'
  | _, _ => false

end

mutual

theorem TypeDenoter.eq_of_same : ∀ {a b : TypeDenoter}, a.same b = true → a = b
  | .simple n, b, h => by cases b <;> simp_all [TypeDenoter.same]
  | .array l t, b, h => by
      cases b <;> simp [TypeDenoter.same] at h
      simp [h.1, t.eq_of_same h.2]
  | .record fs, b, h => by
      cases b <;> simp [TypeDenoter.same] at h
      simp [TypeDenoter.eq_of_sameFields h]

theorem TypeDenoter.eq_of_sameFields :
    ∀ {a b : List (String × TypeDenoter)}, TypeDenoter.sameFields a b = true → a = b
  | [], b, h => by cases b <;> simp_all [TypeDenoter.sameFields]
  | (n, x) :: fs, b, h => by
      rcases b with _ | ⟨⟨n', x'⟩, fs'⟩ <;> simp [TypeDenoter.sameFields] at h
      simp [h.1.1, x.eq_of_same h.1.2, TypeDenoter.eq_of_sameFields h.2]

end

mutual

theorem TypeDenoter.same_refl : ∀ a : TypeDenoter, a.same a = true
  | .simple n => by simp [TypeDenoter.same]
  | .array l t => by simp [TypeDenoter.same, t.same_refl]
  | .record fs => by simp [TypeDenoter.same, TypeDenoter.sameFields_refl fs]

theorem TypeDenoter.sameFields_refl :
    ∀ fs : List (String × TypeDenoter), TypeDenoter.sameFields fs fs = true
  | [] => by simp [TypeDenoter.sameFields]
  | (n, x) :: fs => by simp [TypeDenoter.sameFields, x.same_refl, TypeDenoter.sameFields_refl fs]

end

instance : DecidableEq TypeDenoter := fun a b =>
  decidable_of_iff (a.same b = true) ⟨TypeDenoter.eq_of_same, fun h => h ▸ a.same_refl⟩

mutual

/-- Whether two formal parameters are equal. -/
def FormalParameter.same : FormalParameter → FormalParameter → Bool
  | .const n t, .const n' t' => n == n' && t == t'
  | .var n t, .var n' t' => n == n' && t == t'
  | .proc n ps, .proc n' ps' => n == n' && FormalParameter.sameAll ps ps'
  | .func n ps t, .func n' ps' t' => n == n' && FormalParameter.sameAll ps ps' && t == t'
  | _, _ => false

/-- Whether two lists of formal parameters are equal. -/
def FormalParameter.sameAll : List FormalParameter → List FormalParameter → Bool
  | [], [] => true
  | x :: xs, x' :: xs' => x.same x' && FormalParameter.sameAll xs xs'
  | _, _ => false

end

mutual

theorem FormalParameter.eq_of_same : ∀ {a b : FormalParameter}, a.same b = true → a = b
  | .const n t, b, h => by cases b <;> simp_all [FormalParameter.same]
  | .var n t, b, h => by cases b <;> simp_all [FormalParameter.same]
  | .proc n ps, b, h => by
      cases b <;> simp [FormalParameter.same] at h
      simp [h.1, FormalParameter.eq_of_sameAll h.2]
  | .func n ps t, b, h => by
      cases b <;> simp [FormalParameter.same] at h
      simp [h.1.1, FormalParameter.eq_of_sameAll h.1.2, h.2]

theorem FormalParameter.eq_of_sameAll :
    ∀ {a b : List FormalParameter}, FormalParameter.sameAll a b = true → a = b
  | [], b, h => by cases b <;> simp_all [FormalParameter.sameAll]
  | x :: xs, b, h => by
      cases b <;> simp [FormalParameter.sameAll] at h
      simp [x.eq_of_same h.1, FormalParameter.eq_of_sameAll h.2]

end

mutual

theorem FormalParameter.same_refl : ∀ a : FormalParameter, a.same a = true
  | .const n t => by simp [FormalParameter.same]
  | .var n t => by simp [FormalParameter.same]
  | .proc n ps => by simp [FormalParameter.same, FormalParameter.sameAll_refl ps]
  | .func n ps t => by simp [FormalParameter.same, FormalParameter.sameAll_refl ps]

theorem FormalParameter.sameAll_refl : ∀ xs : List FormalParameter, FormalParameter.sameAll xs xs = true
  | [] => by simp [FormalParameter.sameAll]
  | x :: xs => by simp [FormalParameter.sameAll, x.same_refl, FormalParameter.sameAll_refl xs]

end

instance : DecidableEq FormalParameter := fun a b =>
  decidable_of_iff (a.same b = true) ⟨FormalParameter.eq_of_same, fun h => h ▸ a.same_refl⟩

/-! ## Value names, expressions, arguments, declarations and commands -/

mutual

/-- Whether two value names are equal. -/
def Vname.same : Vname → Vname → Bool
  | .simple n, .simple n' => n == n'
  | .dot v n, .dot v' n' => v.same v' && n == n'
  | .subscript v i, .subscript v' i' => v.same v' && i.same i'
  | _, _ => false

/-- Whether two expressions are equal. -/
def Expression.same : Expression → Expression → Bool
  | .empty, .empty => true
  | .integer i, .integer i' => i == i'
  | .character c, .character c' => c == c'
  | .vname v, .vname v' => v.same v'
  | .var n, .var n' => n == n'
  | .unary o x, .unary o' x' => o == o' && x.same x'
  | .binary o x y, .binary o' x' y' => o == o' && x.same x' && y.same y'
  | .ifThenElse x y z, .ifThenElse x' y' z' => x.same x' && y.same y' && z.same z'
  | .letIn d x, .letIn d' x' => d.same d' && x.same x'
  | .call n as, .call n' as' => n == n' && ActualParameter.sameAll as as'
  | .array xs, .array xs' => Expression.sameAll xs xs'
  | .record fs, .record fs' => Expression.sameFields fs fs'
  | _, _ => false

/-- Whether two lists of expressions are equal. -/
def Expression.sameAll : List Expression → List Expression → Bool
  | [], [] => true
  | x :: xs, x' :: xs' => x.same x' && Expression.sameAll xs xs'
  | _, _ => false

/-- Whether two lists of named expressions are equal. -/
def Expression.sameFields : List (String × Expression) → List (String × Expression) → Bool
  | [], [] => true
  | (n, x) :: fs, (n', x') :: fs' => n == n' && x.same x' && Expression.sameFields fs fs'
  | _, _ => false

/-- Whether two arguments are equal. -/
def ActualParameter.same : ActualParameter → ActualParameter → Bool
  | .const x, .const x' => x.same x'
  | .var v, .var v' => v.same v'
  | .proc n, .proc n' => n == n'
  | .func n, .func n' => n == n'
  | _, _ => false

/-- Whether two lists of arguments are equal. -/
def ActualParameter.sameAll : List ActualParameter → List ActualParameter → Bool
  | [], [] => true
  | x :: xs, x' :: xs' => x.same x' && ActualParameter.sameAll xs xs'
  | _, _ => false

/-- Whether two declarations are equal. -/
def Declaration.same : Declaration → Declaration → Bool
  | .const n x, .const n' x' => n == n' && x.same x'
  | .var n t, .var n' t' => n == n' && t == t'
  | .proc n ps c, .proc n' ps' c' => n == n' && ps == ps' && c.same c'
  | .func n ps t x, .func n' ps' t' x' => n == n' && ps == ps' && t == t' && x.same x'
  | .type n t, .type n' t' => n == n' && t == t'
  | .unaryOperator o t r, .unaryOperator o' t' r' => o == o' && t == t' && r == r'
  | .binaryOperator o t u r, .binaryOperator o' t' u' r' => o == o' && t == t' && u == u' && r == r'
  | .sequential ds, .sequential ds' => Declaration.sameAll ds ds'
  | _, _ => false

/-- Whether two lists of declarations are equal. -/
def Declaration.sameAll : List Declaration → List Declaration → Bool
  | [], [] => true
  | x :: xs, x' :: xs' => x.same x' && Declaration.sameAll xs xs'
  | _, _ => false

/-- Whether two commands are equal. -/
def Command.same : Command → Command → Bool
  | .assign v x, .assign v' x' => v.same v' && x.same x'
  | .call n as, .call n' as' => n == n' && ActualParameter.sameAll as as'
  | .empty, .empty => true
  | .ifThenElse x c d, .ifThenElse x' c' d' => x.same x' && c.same c' && d.same d'
  | .letIn d c, .letIn d' c' => d.same d' && c.same c'
  | .sequential cs, .sequential cs' => Command.sameAll cs cs'
  | .whileDo x c, .whileDo x' c' => x.same x' && c.same c'
  | _, _ => false

/-- Whether two lists of commands are equal. -/
def Command.sameAll : List Command → List Command → Bool
  | [], [] => true
  | x :: xs, x' :: xs' => x.same x' && Command.sameAll xs xs'
  | _, _ => false

end

mutual

theorem Vname.eq_of_same : ∀ {a b : Vname}, a.same b = true → a = b
  | .simple n, b, h => by cases b <;> simp_all [Vname.same]
  | .dot v n, b, h => by
      cases b <;> simp [Vname.same] at h
      simp [v.eq_of_same h.1, h.2]
  | .subscript v i, b, h => by
      cases b <;> simp [Vname.same] at h
      simp [v.eq_of_same h.1, i.eq_of_same h.2]

theorem Expression.eq_of_same : ∀ {a b : Expression}, a.same b = true → a = b
  | .empty, b, h => by cases b <;> simp_all [Expression.same]
  | .integer i, b, h => by cases b <;> simp_all [Expression.same]
  | .character c, b, h => by cases b <;> simp_all [Expression.same]
  | .vname v, b, h => by
      cases b <;> simp [Expression.same] at h
      simp [v.eq_of_same h]
  | .var n, b, h => by cases b <;> simp_all [Expression.same]
  | .unary o x, b, h => by
      cases b <;> simp [Expression.same] at h
      simp [h.1, x.eq_of_same h.2]
  | .binary o x y, b, h => by
      cases b <;> simp [Expression.same] at h
      simp [h.1.1, x.eq_of_same h.1.2, y.eq_of_same h.2]
  | .ifThenElse x y z, b, h => by
      cases b <;> simp [Expression.same] at h
      simp [x.eq_of_same h.1.1, y.eq_of_same h.1.2, z.eq_of_same h.2]
  | .letIn d x, b, h => by
      cases b <;> simp [Expression.same] at h
      simp [d.eq_of_same h.1, x.eq_of_same h.2]
  | .call n as, b, h => by
      cases b <;> simp [Expression.same] at h
      simp [h.1, ActualParameter.eq_of_sameAll h.2]
  | .array xs, b, h => by
      cases b <;> simp [Expression.same] at h
      simp [Expression.eq_of_sameAll h]
  | .record fs, b, h => by
      cases b <;> simp [Expression.same] at h
      simp [Expression.eq_of_sameFields h]

theorem Expression.eq_of_sameAll :
    ∀ {a b : List Expression}, Expression.sameAll a b = true → a = b
  | [], b, h => by cases b <;> simp_all [Expression.sameAll]
  | x :: xs, b, h => by
      cases b <;> simp [Expression.sameAll] at h
      simp [x.eq_of_same h.1, Expression.eq_of_sameAll h.2]

theorem Expression.eq_of_sameFields :
    ∀ {a b : List (String × Expression)}, Expression.sameFields a b = true → a = b
  | [], b, h => by cases b <;> simp_all [Expression.sameFields]
  | (n, x) :: fs, b, h => by
      rcases b with _ | ⟨⟨n', x'⟩, fs'⟩ <;> simp [Expression.sameFields] at h
      simp [h.1.1, x.eq_of_same h.1.2, Expression.eq_of_sameFields h.2]

theorem ActualParameter.eq_of_same : ∀ {a b : ActualParameter}, a.same b = true → a = b
  | .const x, b, h => by
      cases b <;> simp [ActualParameter.same] at h
      simp [x.eq_of_same h]
  | .var v, b, h => by
      cases b <;> simp [ActualParameter.same] at h
      simp [v.eq_of_same h]
  | .proc n, b, h => by cases b <;> simp_all [ActualParameter.same]
  | .func n, b, h => by cases b <;> simp_all [ActualParameter.same]

theorem ActualParameter.eq_of_sameAll :
    ∀ {a b : List ActualParameter}, ActualParameter.sameAll a b = true → a = b
  | [], b, h => by cases b <;> simp_all [ActualParameter.sameAll]
  | x :: xs, b, h => by
      cases b <;> simp [ActualParameter.sameAll] at h
      simp [x.eq_of_same h.1, ActualParameter.eq_of_sameAll h.2]

theorem Declaration.eq_of_same : ∀ {a b : Declaration}, a.same b = true → a = b
  | .const n x, b, h => by
      cases b <;> simp [Declaration.same] at h
      simp [h.1, x.eq_of_same h.2]
  | .var n t, b, h => by cases b <;> simp_all [Declaration.same]
  | .proc n ps c, b, h => by
      cases b <;> simp [Declaration.same] at h
      simp [h.1.1, h.1.2, c.eq_of_same h.2]
  | .func n ps t x, b, h => by
      cases b <;> simp [Declaration.same] at h
      simp [h.1.1.1, h.1.1.2, h.1.2, x.eq_of_same h.2]
  | .type n t, b, h => by cases b <;> simp_all [Declaration.same]
  | .unaryOperator o t r, b, h => by cases b <;> simp_all [Declaration.same]
  | .binaryOperator o t u r, b, h => by cases b <;> simp_all [Declaration.same]
  | .sequential ds, b, h => by
      cases b <;> simp [Declaration.same] at h
      simp [Declaration.eq_of_sameAll h]

theorem Declaration.eq_of_sameAll :
    ∀ {a b : List Declaration}, Declaration.sameAll a b = true → a = b
  | [], b, h => by cases b <;> simp_all [Declaration.sameAll]
  | x :: xs, b, h => by
      cases b <;> simp [Declaration.sameAll] at h
      simp [x.eq_of_same h.1, Declaration.eq_of_sameAll h.2]

theorem Command.eq_of_same : ∀ {a b : Command}, a.same b = true → a = b
  | .assign v x, b, h => by
      cases b <;> simp [Command.same] at h
      simp [v.eq_of_same h.1, x.eq_of_same h.2]
  | .call n as, b, h => by
      cases b <;> simp [Command.same] at h
      simp [h.1, ActualParameter.eq_of_sameAll h.2]
  | .empty, b, h => by cases b <;> simp_all [Command.same]
  | .ifThenElse x c d, b, h => by
      cases b <;> simp [Command.same] at h
      simp [x.eq_of_same h.1.1, c.eq_of_same h.1.2, d.eq_of_same h.2]
  | .letIn d c, b, h => by
      cases b <;> simp [Command.same] at h
      simp [d.eq_of_same h.1, c.eq_of_same h.2]
  | .sequential cs, b, h => by
      cases b <;> simp [Command.same] at h
      simp [Command.eq_of_sameAll h]
  | .whileDo x c, b, h => by
      cases b <;> simp [Command.same] at h
      simp [x.eq_of_same h.1, c.eq_of_same h.2]

theorem Command.eq_of_sameAll :
    ∀ {a b : List Command}, Command.sameAll a b = true → a = b
  | [], b, h => by cases b <;> simp_all [Command.sameAll]
  | x :: xs, b, h => by
      cases b <;> simp [Command.sameAll] at h
      simp [x.eq_of_same h.1, Command.eq_of_sameAll h.2]

end

mutual

theorem Vname.same_refl : ∀ a : Vname, a.same a = true
  | .simple n => by simp [Vname.same]
  | .dot v n => by simp [Vname.same, v.same_refl]
  | .subscript v i => by simp [Vname.same, v.same_refl, i.same_refl]

theorem Expression.same_refl : ∀ a : Expression, a.same a = true
  | .empty => by simp [Expression.same]
  | .integer i => by simp [Expression.same]
  | .character c => by simp [Expression.same]
  | .vname v => by simp [Expression.same, v.same_refl]
  | .var n => by simp [Expression.same]
  | .unary o x => by simp [Expression.same, x.same_refl]
  | .binary o x y => by simp [Expression.same, x.same_refl, y.same_refl]
  | .ifThenElse x y z => by simp [Expression.same, x.same_refl, y.same_refl, z.same_refl]
  | .letIn d x => by simp [Expression.same, d.same_refl, x.same_refl]
  | .call n as => by simp [Expression.same, ActualParameter.sameAll_refl as]
  | .array xs => by simp [Expression.same, Expression.sameAll_refl xs]
  | .record fs => by simp [Expression.same, Expression.sameFields_refl fs]

theorem Expression.sameAll_refl : ∀ xs : List Expression, Expression.sameAll xs xs = true
  | [] => by simp [Expression.sameAll]
  | x :: xs => by simp [Expression.sameAll, x.same_refl, Expression.sameAll_refl xs]

theorem Expression.sameFields_refl :
    ∀ fs : List (String × Expression), Expression.sameFields fs fs = true
  | [] => by simp [Expression.sameFields]
  | (n, x) :: fs => by simp [Expression.sameFields, x.same_refl, Expression.sameFields_refl fs]

theorem ActualParameter.same_refl : ∀ a : ActualParameter, a.same a = true
  | .const x => by simp [ActualParameter.same, x.same_refl]
  | .var v => by simp [ActualParameter.same, v.same_refl]
  | .proc n => by simp [ActualParameter.same]
  | .func n => by simp [ActualParameter.same]

theorem ActualParameter.sameAll_refl : ∀ xs : List ActualParameter, ActualParameter.sameAll xs xs = true
  | [] => by simp [ActualParameter.sameAll]
  | x :: xs => by simp [ActualParameter.sameAll, x.same_refl, ActualParameter.sameAll_refl xs]

theorem Declaration.same_refl : ∀ a : Declaration, a.same a = true
  | .const n x => by simp [Declaration.same, x.same_refl]
  | .var n t => by simp [Declaration.same]
  | .proc n ps c => by simp [Declaration.same, c.same_refl]
  | .func n ps t x => by simp [Declaration.same, x.same_refl]
  | .type n t => by simp [Declaration.same]
  | .unaryOperator o t r => by simp [Declaration.same]
  | .binaryOperator o t u r => by simp [Declaration.same]
  | .sequential ds => by simp [Declaration.same, Declaration.sameAll_refl ds]

theorem Declaration.sameAll_refl : ∀ xs : List Declaration, Declaration.sameAll xs xs = true
  | [] => by simp [Declaration.sameAll]
  | x :: xs => by simp [Declaration.sameAll, x.same_refl, Declaration.sameAll_refl xs]

theorem Command.same_refl : ∀ a : Command, a.same a = true
  | .assign v x => by simp [Command.same, v.same_refl, x.same_refl]
  | .call n as => by simp [Command.same, ActualParameter.sameAll_refl as]
  | .empty => by simp [Command.same]
  | .ifThenElse x c d => by simp [Command.same, x.same_refl, c.same_refl, d.same_refl]
  | .letIn d c => by simp [Command.same, d.same_refl, c.same_refl]
  | .sequential cs => by simp [Command.same, Command.sameAll_refl cs]
  | .whileDo x c => by simp [Command.same, x.same_refl, c.same_refl]

theorem Command.sameAll_refl : ∀ xs : List Command, Command.sameAll xs xs = true
  | [] => by simp [Command.sameAll]
  | x :: xs => by simp [Command.sameAll, x.same_refl, Command.sameAll_refl xs]

end

instance : DecidableEq Vname := fun a b =>
  decidable_of_iff (a.same b = true) ⟨Vname.eq_of_same, fun h => h ▸ a.same_refl⟩

instance : DecidableEq Expression := fun a b =>
  decidable_of_iff (a.same b = true) ⟨Expression.eq_of_same, fun h => h ▸ a.same_refl⟩

instance : DecidableEq ActualParameter := fun a b =>
  decidable_of_iff (a.same b = true) ⟨ActualParameter.eq_of_same, fun h => h ▸ a.same_refl⟩

instance : DecidableEq Declaration := fun a b =>
  decidable_of_iff (a.same b = true) ⟨Declaration.eq_of_same, fun h => h ▸ a.same_refl⟩

instance : DecidableEq Command := fun a b =>
  decidable_of_iff (a.same b = true) ⟨Command.eq_of_same, fun h => h ▸ a.same_refl⟩

instance : DecidableEq Program := fun a b =>
  decidable_of_iff (a.command = b.command)
    ⟨fun h => by cases a; cases b; simp_all, fun h => by simp [h]⟩

end LoopHoist.Document
