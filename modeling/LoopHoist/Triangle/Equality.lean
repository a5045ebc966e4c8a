import LoopHoist.Triangle.Tree

/-!
# Equality of trees is decidable

Two trees are compared node by node, spans included.  `same` is the comparison; `eq_of_same` and
`same_refl` say that it answers `true` exactly on equal trees, which gives the `DecidableEq` instances.
-/

namespace LoopHoist

/-! ## Types and formal parameters -/

mutual

/-- Whether two types are equal. -/
def TypeDenoter.same : TypeDenoter → TypeDenoter → Bool
  | .simple n, .simple n' => n == n'
  | .array l e, .array l' e' => l == l' && e.same e'
  | .record fs, .record fs' => TypeDenoter.sameFields fs fs'
  | _, _ => false

/-- Whether two lists of named types are equal. -/
def TypeDenoter.sameFields :
    List (Identifier × TypeDenoter) → List (Identifier × TypeDenoter) → Bool
  | [], [] => true
  | (n, t) :: fs, (n', t') :: fs' => n == n' && t.same t' && TypeDenoter.sameFields fs fs'
  | _, _ => false

end

mutual

theorem TypeDenoter.eq_of_same : ∀ {a b : TypeDenoter}, a.same b = true → a = b
  | .simple n, b, h => by cases b <;> simp_all [TypeDenoter.same]
  | .array l e, b, h => by
      cases b <;> simp [TypeDenoter.same] at h
      simp [h.1, e.eq_of_same h.2]
  | .record fs, b, h => by
      cases b <;> simp [TypeDenoter.same] at h
      simp [TypeDenoter.eq_of_sameFields h]

theorem TypeDenoter.eq_of_sameFields :
    ∀ {a b : List (Identifier × TypeDenoter)}, TypeDenoter.sameFields a b = true → a = b
  | [], b, h => by cases b <;> simp_all [TypeDenoter.sameFields]
  | (n, t) :: fs, b, h => by
      rcases b with _ | ⟨⟨n', t'⟩, fs'⟩ <;> simp [TypeDenoter.sameFields] at h
      simp [h.1.1, t.eq_of_same h.1.2, TypeDenoter.eq_of_sameFields h.2]

end

mutual

theorem TypeDenoter.same_refl : ∀ a : TypeDenoter, a.same a = true
  | .simple n => by simp [TypeDenoter.same]
  | .array l e => by simp [TypeDenoter.same, e.same_refl]
  | .record fs => by simp [TypeDenoter.same, TypeDenoter.sameFields_refl fs]

theorem TypeDenoter.sameFields_refl :
    ∀ fs : List (Identifier × TypeDenoter), TypeDenoter.sameFields fs fs = true
  | [] => by simp [TypeDenoter.sameFields]
  | (n, t) :: fs => by
      simp [TypeDenoter.sameFields, t.same_refl, TypeDenoter.sameFields_refl fs]

end

instance : DecidableEq TypeDenoter := fun a b =>
  decidable_of_iff (a.same b = true) ⟨TypeDenoter.eq_of_same, fun h => h ▸ a.same_refl⟩

mutual

/-- Whether two formal parameters are equal. -/
def FormalParameter.same : FormalParameter → FormalParameter → Bool
  | .const n t, .const n' t' => n == n' && t == t'
  | .var n t, .var n' t' => n == n' && t == t'
  | .proc n ps, .proc n' ps' => n == n' && FormalParameter.sameAll ps ps'
  | .func n ps t, .func n' ps' t' => n == n' && FormalParameter.sameAll ps ps' && t == t'
  | _, _ => false

/-- Whether two lists of formal parameters are equal. -/
def FormalParameter.sameAll : List FormalParameter → List FormalParameter → Bool
  | [], [] => true
  | p :: ps, p' :: ps' => p.same p' && FormalParameter.sameAll ps ps'
  | _, _ => false

end

mutual

theorem FormalParameter.eq_of_same : ∀ {a b : FormalParameter}, a.same b = true → a = b
  | .const n t, b, h => by cases b <;> simp_all [FormalParameter.same]
  | .var n t, b, h => by cases b <;> simp_all [FormalParameter.same]
  | .proc n ps, b, h => by
      cases b <;> simp [FormalParameter.same] at h
      simp [h.1, FormalParameter.eq_of_sameAll h.2]
  | .func n ps t, b, h => by
      cases b <;> simp [FormalParameter.same] at h
      simp [h.1.1, FormalParameter.eq_of_sameAll h.1.2, h.2]

theorem FormalParameter.eq_of_sameAll :
    ∀ {a b : List FormalParameter}, FormalParameter.sameAll a b = true → a = b
  | [], b, h => by cases b <;> simp_all [FormalParameter.sameAll]
  | p :: ps, b, h => by
      cases b <;> simp [FormalParameter.sameAll] at h
      simp [p.eq_of_same h.1, FormalParameter.eq_of_sameAll h.2]

end

mutual

theorem FormalParameter.same_refl : ∀ a : FormalParameter, a.same a = true
  | .const n t | .var n t => by simp [FormalParameter.same]
  | .proc n ps => by simp [FormalParameter.same, FormalParameter.sameAll_refl ps]
  | .func n ps t => by simp [FormalParameter.same, FormalParameter.sameAll_refl ps]

theorem FormalParameter.sameAll_refl :
    ∀ ps : List FormalParameter, FormalParameter.sameAll ps ps = true
  | [] => by simp [FormalParameter.sameAll]
  | p :: ps => by simp [FormalParameter.sameAll, p.same_refl, FormalParameter.sameAll_refl ps]

end

instance : DecidableEq FormalParameter := fun a b =>
  decidable_of_iff (a.same b = true) ⟨FormalParameter.eq_of_same, fun h => h ▸ a.same_refl⟩

/-! ## Value names, expressions, arguments, declarations and commands -/

mutual

/-- Whether two value names are equal. -/
def Vname.same : Vname → Vname → Bool
  | .simple n s, .simple n' s' => n == n' && s == s'
  | .dot b n s, .dot b' n' s' => b.same b' && n == n' && s == s'
  | .subscript b i s, .subscript b' i' s' => b.same b' && i.same i' && s == s'
  | _, _ => false

/-- Whether two expressions are equal. -/
def Expression.same : Expression → Expression → Bool
  | .empty s, .empty s' => s == s'
  | .integer l s, .integer l' s' => l == l' && s == s'
  | .character l s, .character l' s' => l == l' && s == s'
  | .read v s, .read v' s' => v.same v' && s == s'
  | .unary o e s, .unary o' e' s' => o == o' && e.same e' && s == s'
  | .binary o l r s, .binary o' l' r' s' => o == o' && l.same l' && r.same r' && s == s'
  | .ifThenElse c t e s, .ifThenElse c' t' e' s' => c.same c' && t.same t' && e.same e' && s == s'
  | .letIn d e s, .letIn d' e' s' => d.same d' && e.same e' && s == s'
  | .call f as s, .call f' as' s' => f == f' && ActualParameter.sameAll as as' && s == s'
  | .array es s, .array es' s' => Expression.sameAll es es' && s == s'
  | .record fs s, .record fs' s' => Expression.sameFields fs fs' && s == s'
  | _, _ => false

/-- Whether two lists of expressions are equal. -/
def Expression.sameAll : List Expression → List Expression → Bool
  | [], [] => true
  | e :: es, e' :: es' => e.same e' && Expression.sameAll es es'
  | _, _ => false

/-- Whether two lists of named expressions are equal. -/
def Expression.sameFields :
    List (Identifier × Expression) → List (Identifier × Expression) → Bool
  | [], [] => true
  | (n, e) :: fs, (n', e') :: fs' => n == n' && e.same e' && Expression.sameFields fs fs'
  | _, _ => false

/-- Whether two arguments are equal. -/
def ActualParameter.same : ActualParameter → ActualParameter → Bool
  | .const e, .const e' => e.same e'
  | .var v, .var v' => v.same v'
  | .proc n, .proc n' => n == n'
  | .func n, .func n' => n == n'
  | _, _ => false

/-- Whether two lists of arguments are equal. -/
def ActualParameter.sameAll : List ActualParameter → List ActualParameter → Bool
  | [], [] => true
  | a :: as, a' :: as' => a.same a' && ActualParameter.sameAll as as'
  | _, _ => false

/-- Whether two declarations are equal. -/
def Declaration.same : Declaration → Declaration → Bool
  | .const n e s, .const n' e' s' => n == n' && e.same e' && s == s'
  | .var n t s, .var n' t' s' => n == n' && t == t' && s == s'
  | .proc n ps c s, .proc n' ps' c' s' => n == n' && ps == ps' && c.same c' && s == s'
  | .func n ps t e s, .func n' ps' t' e' s' =>
      n == n' && ps == ps' && t == t' && e.same e' && s == s'
  | .type n t s, .type n' t' s' => n == n' && t == t' && s == s'
  | .unaryOperator o a r s, .unaryOperator o' a' r' s' => o == o' && a == a' && r == r' && s == s'
  | .binaryOperator o a b r s, .binaryOperator o' a' b' r' s' =>
      o == o' && a == a' && b == b' && r == r' && s == s'
  | .seq d e s, .seq d' e' s' => d.same d' && e.same e' && s == s'
  | _, _ => false

/-- Whether two commands are equal. -/
def Command.same : Command → Command → Bool
  | .assign v e s, .assign v' e' s' => v.same v' && e.same e' && s == s'
  | .call p as s, .call p' as' s' => p == p' && ActualParameter.sameAll as as' && s == s'
  | .skip s, .skip s' => s == s'
  | .ifThenElse c t e s, .ifThenElse c' t' e' s' => c.same c' && t.same t' && e.same e' && s == s'
  | .letIn d c s, .letIn d' c' s' => d.same d' && c.same c' && s == s'
  | .seq c d s, .seq c' d' s' => c.same c' && d.same d' && s == s'
  | .whileDo c b s, .whileDo c' b' s' => c.same c' && b.same b' && s == s'
  | _, _ => false

end

mutual

theorem Vname.eq_of_same : ∀ {a b : Vname}, a.same b = true → a = b
  | .simple n s, b, h => by cases b <;> simp_all [Vname.same]
  | .dot v n s, b, h => by
      cases b <;> simp [Vname.same] at h
      simp [v.eq_of_same h.1.1, h.1.2, h.2]
  | .subscript v i s, b, h => by
      cases b <;> simp [Vname.same] at h
      simp [v.eq_of_same h.1.1, i.eq_of_same h.1.2, h.2]

theorem Expression.eq_of_same : ∀ {a b : Expression}, a.same b = true → a = b
  | .empty s, b, h => by cases b <;> simp_all [Expression.same]
  | .integer l s, b, h => by cases b <;> simp_all [Expression.same]
  | .character l s, b, h => by cases b <;> simp_all [Expression.same]
  | .read v s, b, h => by
      cases b <;> simp [Expression.same] at h
      simp [v.eq_of_same h.1, h.2]
  | .unary o e s, b, h => by
      cases b <;> simp [Expression.same] at h
      simp [h.1.1, e.eq_of_same h.1.2, h.2]
  | .binary o l r s, b, h => by
      cases b <;> simp [Expression.same] at h
      simp [h.1.1.1, l.eq_of_same h.1.1.2, r.eq_of_same h.1.2, h.2]
  | .ifThenElse c t e s, b, h => by
      cases b <;> simp [Expression.same] at h
      simp [c.eq_of_same h.1.1.1, t.eq_of_same h.1.1.2, e.eq_of_same h.1.2, h.2]
  | .letIn d e s, b, h => by
      cases b <;> simp [Expression.same] at h
      simp [d.eq_of_same h.1.1, e.eq_of_same h.1.2, h.2]
  | .call f as s, b, h => by
      cases b <;> simp [Expression.same] at h
      simp [h.1.1, ActualParameter.eq_of_sameAll h.1.2, h.2]
  | .array es s, b, h => by
      cases b <;> simp [Expression.same] at h
      simp [Expression.eq_of_sameAll h.1, h.2]
  | .record fs s, b, h => by
      cases b <;> simp [Expression.same] at h
      simp [Expression.eq_of_sameFields h.1, h.2]

theorem Expression.eq_of_sameAll :
    ∀ {a b : List Expression}, Expression.sameAll a b = true → a = b
  | [], b, h => by cases b <;> simp_all [Expression.sameAll]
  | e :: es, b, h => by
      cases b <;> simp [Expression.sameAll] at h
      simp [e.eq_of_same h.1, Expression.eq_of_sameAll h.2]

theorem Expression.eq_of_sameFields :
    ∀ {a b : List (Identifier × Expression)}, Expression.sameFields a b = true → a = b
  | [], b, h => by cases b <;> simp_all [Expression.sameFields]
  | (n, e) :: fs, b, h => by
      rcases b with _ | ⟨⟨n', e'⟩, fs'⟩ <;> simp [Expression.sameFields] at h
      simp [h.1.1, e.eq_of_same h.1.2, Expression.eq_of_sameFields h.2]

theorem ActualParameter.eq_of_same : ∀ {a b : ActualParameter}, a.same b = true → a = b
  | .const e, b, h => by
      cases b <;> simp [ActualParameter.same] at h
      simp [e.eq_of_same h]
  | .var v, b, h => by
      cases b <;> simp [ActualParameter.same] at h
      simp [v.eq_of_same h]
  | .proc n, b, h => by cases b <;> simp_all [ActualParameter.same]
  | .func n, b, h => by cases b <;> simp_all [ActualParameter.same]

theorem ActualParameter.eq_of_sameAll :
    ∀ {a b : List ActualParameter}, ActualParameter.sameAll a b = true → a = b
  | [], b, h => by cases b <;> simp_all [ActualParameter.sameAll]
  | a :: as, b, h => by
      cases b <;> simp [ActualParameter.sameAll] at h
      simp [a.eq_of_same h.1, ActualParameter.eq_of_sameAll h.2]

theorem Declaration.eq_of_same : ∀ {a b : Declaration}, a.same b = true → a = b
  | .const n e s, b, h => by
      cases b <;> simp [Declaration.same] at h
      simp [h.1.1, e.eq_of_same h.1.2, h.2]
  | .var n t s, b, h => by cases b <;> simp_all [Declaration.same]
  | .proc n ps c s, b, h => by
      cases b <;> simp [Declaration.same] at h
      simp [h.1.1.1, h.1.1.2, c.eq_of_same h.1.2, h.2]
  | .func n ps t e s, b, h => by
      cases b <;> simp [Declaration.same] at h
      simp [h.1.1.1.1, h.1.1.1.2, h.1.1.2, e.eq_of_same h.1.2, h.2]
  | .type n t s, b, h => by cases b <;> simp_all [Declaration.same]
  | .unaryOperator o a r s, b, h => by cases b <;> simp_all [Declaration.same]
  | .binaryOperator o a c r s, b, h => by cases b <;> simp_all [Declaration.same]
  | .seq d e s, b, h => by
      cases b <;> simp [Declaration.same] at h
      simp [d.eq_of_same h.1.1, e.eq_of_same h.1.2, h.2]

theorem Command.eq_of_same : ∀ {a b : Command}, a.same b = true → a = b
  | .assign v e s, b, h => by
      cases b <;> simp [Command.same] at h
      simp [v.eq_of_same h.1.1, e.eq_of_same h.1.2, h.2]
  | .call p as s, b, h => by
      cases b <;> simp [Command.same] at h
      simp [h.1.1, ActualParameter.eq_of_sameAll h.1.2, h.2]
  | .skip s, b, h => by cases b <;> simp_all [Command.same]
  | .ifThenElse c t e s, b, h => by
      cases b <;> simp [Command.same] at h
      simp [c.eq_of_same h.1.1.1, t.eq_of_same h.1.1.2, e.eq_of_same h.1.2, h.2]
  | .letIn d c s, b, h => by
      cases b <;> simp [Command.same] at h
      simp [d.eq_of_same h.1.1, c.eq_of_same h.1.2, h.2]
  | .seq c d s, b, h => by
      cases b <;> simp [Command.same] at h
      simp [c.eq_of_same h.1.1, d.eq_of_same h.1.2, h.2]
  | .whileDo c d s, b, h => by
      cases b <;> simp [Command.same] at h
      simp [c.eq_of_same h.1.1, d.eq_of_same h.1.2, h.2]

end

mutual

theorem Vname.same_refl : ∀ a : Vname, a.same a = true
  | .simple n s => by simp [Vname.same]
  | .dot v n s => by simp [Vname.same, v.same_refl]
  | .subscript v i s => by simp [Vname.same, v.same_refl, i.same_refl]

theorem Expression.same_refl : ∀ a : Expression, a.same a = true
  | .empty s | .integer l s | .character l s => by simp [Expression.same]
  | .read v s => by simp [Expression.same, v.same_refl]
  | .unary o e s => by simp [Expression.same, e.same_refl]
  | .binary o l r s => by simp [Expression.same, l.same_refl, r.same_refl]
  | .ifThenElse c t e s => by simp [Expression.same, c.same_refl, t.same_refl, e.same_refl]
  | .letIn d e s => by simp [Expression.same, d.same_refl, e.same_refl]
  | .call f as s => by simp [Expression.same, ActualParameter.sameAll_refl as]
  | .array es s => by simp [Expression.same, Expression.sameAll_refl es]
  | .record fs s => by simp [Expression.same, Expression.sameFields_refl fs]

theorem Expression.sameAll_refl : ∀ es : List Expression, Expression.sameAll es es = true
  | [] => by simp [Expression.sameAll]
  | e :: es => by simp [Expression.sameAll, e.same_refl, Expression.sameAll_refl es]

theorem Expression.sameFields_refl :
    ∀ fs : List (Identifier × Expression), Expression.sameFields fs fs = true
  | [] => by simp [Expression.sameFields]
  | (n, e) :: fs => by simp [Expression.sameFields, e.same_refl, Expression.sameFields_refl fs]

theorem ActualParameter.same_refl : ∀ a : ActualParameter, a.same a = true
  | .const e => by simp [ActualParameter.same, e.same_refl]
  | .var v => by simp [ActualParameter.same, v.same_refl]
  | .proc n | .func n => by simp [ActualParameter.same]

theorem ActualParameter.sameAll_refl :
    ∀ as : List ActualParameter, ActualParameter.sameAll as as = true
  | [] => by simp [ActualParameter.sameAll]
  | a :: as => by simp [ActualParameter.sameAll, a.same_refl, ActualParameter.sameAll_refl as]

theorem Declaration.same_refl : ∀ a : Declaration, a.same a = true
  | .const n e s => by simp [Declaration.same, e.same_refl]
  | .proc n ps c s => by simp [Declaration.same, c.same_refl]
  | .func n ps t e s => by simp [Declaration.same, e.same_refl]
  | .var n t s | .type n t s => by simp [Declaration.same]
  | .unaryOperator o a r s => by simp [Declaration.same]
  | .binaryOperator o a b r s => by simp [Declaration.same]
  | .seq d e s => by simp [Declaration.same, d.same_refl, e.same_refl]

theorem Command.same_refl : ∀ a : Command, a.same a = true
  | .assign v e s => by simp [Command.same, v.same_refl, e.same_refl]
  | .call p as s => by simp [Command.same, ActualParameter.sameAll_refl as]
  | .skip s => by simp [Command.same]
  | .ifThenElse c t e s => by simp [Command.same, c.same_refl, t.same_refl, e.same_refl]
  | .letIn d c s => by simp [Command.same, d.same_refl, c.same_refl]
  | .seq c d s => by simp [Command.same, c.same_refl, d.same_refl]
  | .whileDo c b s => by simp [Command.same, c.same_refl, b.same_refl]

end

instance : DecidableEq Vname := fun a b =>
  decidable_of_iff (a.same b = true) ⟨Vname.eq_of_same, fun h => h ▸ a.same_refl⟩

instance : DecidableEq Expression := fun a b =>
  decidable_of_iff (a.same b = true) ⟨Expression.eq_of_same, fun h => h ▸ a.same_refl⟩

instance : DecidableEq ActualParameter := fun a b =>
  decidable_of_iff (a.same b = true) ⟨ActualParameter.eq_of_same, fun h => h ▸ a.same_refl⟩

instance : DecidableEq Declaration := fun a b =>
  decidable_of_iff (a.same b = true) ⟨Declaration.eq_of_same, fun h => h ▸ a.same_refl⟩

instance : DecidableEq Command := fun a b =>
  decidable_of_iff (a.same b = true) ⟨Command.eq_of_same, fun h => h ▸ a.same_refl⟩

instance : DecidableEq Program := fun a b =>
  decidable_of_iff (a.command = b.command ∧ a.span = b.span)
    ⟨fun h => by cases a; cases b; simp_all, fun h => by simp [h]⟩

end LoopHoist
