import LoopHoist.Proofs.Hoisting.Nesting

/-!
# Constants in order

The declarations of a chain take effect one after the other, so a constant whose value is the read
of an earlier name of the same chain does not stand for what is written: it stands for what that
earlier constant stands for.  `Constant.inOrder` says which expression each constant of a chain
stands for.

Where no constant reads the name of an earlier one (`Constant.CaptureFree`) the order does not
matter (`Constant.inOrder_eq_self`).  In the chain of a loop inside another it can matter, because
the inner loop takes reads of the outer constants over, and its own names start at `$h1` too.
`exists_settled` computes what stands at each position of such a chain.  A read that is captured
stands for a value which the outer loop would *not* have taken, since every capture ends at a value
that the inner loop has for itself: if the captured name belongs to a read again, that read comes
earlier in both chains and is captured too.

So a nest is in step (`Nested.InStep`) exactly when nothing in the inner chain is captured.
-/

namespace LoopHoist

/-! ## Constants declared one after the other -/

/-- What constants stand for when they are declared one after the other, after some that are settled
already: the read of a settled name stands for what that name stands for. -/
def Constant.settleAfter (settled : List Constant) : List Constant → List Constant
  | [] => []
  | constant :: rest =>
      let settledOne : Constant := ⟨constant.name, constant.value.inlined settled⟩
      settledOne :: settleAfter (settled ++ [settledOne]) rest

/-- What the constants of a chain stand for, in terms of the store outside. -/
def Constant.inOrder (constants : List Constant) : List Constant :=
  Constant.settleAfter [] constants

theorem Constant.inOrder_nil : Constant.inOrder [] = [] := rfl

theorem Constant.map_name_settleAfter (constants : List Constant) :
    ∀ settled, (Constant.settleAfter settled constants).map Constant.name =
      constants.map Constant.name := by
  induction constants with
  | nil => intro settled; rfl
  | cons constant rest ih => intro settled; simp [Constant.settleAfter, ih]

theorem Constant.map_name_inOrder (constants : List Constant) :
    (Constant.inOrder constants).map Constant.name = constants.map Constant.name :=
  Constant.map_name_settleAfter constants []

theorem Constant.reserved_of_mem_inOrder {constants : List Constant}
    (hreserved : ∀ constant ∈ constants, Reserved constant.name) :
    ∀ constant ∈ Constant.inOrder constants, Reserved constant.name := by
  intro constant hmem
  have hname : constant.name ∈ (Constant.inOrder constants).map Constant.name :=
    List.mem_map_of_mem hmem
  rw [Constant.map_name_inOrder] at hname
  obtain ⟨other, hother, heq⟩ := List.mem_map.mp hname
  exact heq ▸ hreserved other hother

/-- Settling finds no new values: whatever holds of all values still does. -/
theorem Constant.forall_value_settleAfter (holds : Expression → Prop) {constants : List Constant} :
    ∀ {settled : List Constant}, (∀ constant ∈ settled, holds constant.value) →
      (∀ constant ∈ constants, holds constant.value) →
      ∀ constant ∈ Constant.settleAfter settled constants, holds constant.value := by
  induction constants with
  | nil => intro settled _ _ constant hmem; simp [Constant.settleAfter] at hmem
  | cons first rest ih =>
      intro settled hsettled hconstants
      rw [List.forall_mem_cons] at hconstants
      have hfirst : holds (first.value.inlined settled) :=
        Expression.inlined_induction hconstants.1 hsettled
      rw [Constant.settleAfter, List.forall_mem_cons]
      refine ⟨hfirst, ih ?_ hconstants.2⟩
      intro constant hmem
      rcases List.mem_append.mp hmem with hold | hnew
      · exact hsettled constant hold
      · obtain rfl := List.mem_singleton.mp hnew
        exact hfirst

theorem Constant.forall_value_inOrder (holds : Expression → Prop) {constants : List Constant}
    (hconstants : ∀ constant ∈ constants, holds constant.value) :
    ∀ constant ∈ Constant.inOrder constants, holds constant.value :=
  Constant.forall_value_settleAfter holds (by simp) hconstants

/-! ## Chains without capture -/

/-- No constant reads the name of an earlier one. -/
def Constant.CaptureFree (constants : List Constant) : Prop :=
  constants.Pairwise fun earlier later => earlier.name ∉ later.value.free

instance (constants : List Constant) : Decidable (Constant.CaptureFree constants) :=
  inferInstanceAs (Decidable (constants.Pairwise _))

theorem Expression.inlined_of_notMem {value : Expression} {constants : List Constant}
    (hvalue : ∀ constant ∈ constants, constant.name ∉ value.free) :
    value.inlined constants = value := by
  unfold Expression.inlined
  split
  · rename_i name span span'
    have hnone : Constant.valueOf? constants name.spelling = none := by
      refine Constant.valueOf?_eq_none fun constant hmem heq => hvalue constant hmem ?_
      simp [Expression.free, Vname.free, heq]
    rw [hnone, Option.getD_none]
  · rfl

theorem Constant.settleAfter_eq_self {constants : List Constant} :
    ∀ {settled : List Constant}, Constant.CaptureFree constants →
      (∀ earlier ∈ settled, ∀ later ∈ constants, earlier.name ∉ later.value.free) →
      Constant.settleAfter settled constants = constants := by
  induction constants with
  | nil => intro settled _ _; rfl
  | cons constant rest ih =>
      intro settled hfree hsettled
      obtain ⟨hfirst, hrest⟩ := List.pairwise_cons.mp hfree
      have hvalue : constant.value.inlined settled = constant.value :=
        Expression.inlined_of_notMem fun earlier hearlier => hsettled earlier hearlier _ (by simp)
      rw [Constant.settleAfter, hvalue, ih hrest]
      intro earlier hearlier later hlater
      rcases List.mem_append.mp hearlier with hold | hnew
      · exact hsettled earlier hold later (List.mem_cons_of_mem _ hlater)
      · obtain rfl := List.mem_singleton.mp hnew
        exact hfirst later hlater

/-- Without capture, constants declared one after the other stand for their values as written. -/
theorem Constant.inOrder_eq_self {constants : List Constant}
    (hfree : Constant.CaptureFree constants) : Constant.inOrder constants = constants :=
  Constant.settleAfter_eq_self hfree (by simp)

/-! ## What the constants of an inner chain stand for -/

theorem Constant.getElem?_settleAfter (constants : List Constant) :
    ∀ (settled : List Constant) (i : Nat), (Constant.settleAfter settled constants)[i]? =
      constants[i]?.map fun constant => Constant.mk constant.name
        (constant.value.inlined (settled ++ (Constant.settleAfter settled constants).take i)) := by
  induction constants with
  | nil => intro settled i; simp [Constant.settleAfter]
  | cons constant rest ih =>
      intro settled i
      cases i with
      | zero => simp [Constant.settleAfter]
      | succ i => simp [Constant.settleAfter, ih]

/-- Counting goes on when an element that counts is passed. -/
theorem countP_take_lt (counts : Expression → Bool) {values : List Expression} {i j : Nat}
    (hlt : j < i) {value : Expression} (hvalue : values[j]? = some value)
    (hcounts : counts value = true) :
    (values.take j).countP counts < (values.take i).countP counts := by
  obtain ⟨hj, rfl⟩ := List.getElem?_eq_some_iff.mp hvalue
  calc (values.take j).countP counts < (values.take (j + 1)).countP counts := by
        rw [List.take_succ_eq_append_getElem hj, List.countP_append]
        simp [hcounts]
    _ ≤ (values.take i).countP counts :=
        (List.take_prefix_take_left hlt).sublist.countP_le

section

variable {outer : List String} {taken : Nat} {values : List Expression}

/-- The constant at a position of an inner chain has the name of the position and the value left by
the outer loop, with the constants before it put in. -/
theorem getElem?_inOrder_innerConstants {i : Nat} {value : Expression}
    (hvalue : values[i]? = some value) :
    (Constant.inOrder (innerConstants outer taken values))[i]? =
      some ⟨hoistedName (i + 1), (if value.isInvariant outer then
          readOf (taken + (values.take i).countP (·.isInvariant outer) + 1) else value).inlined
        ((Constant.inOrder (innerConstants outer taken values)).take i)⟩ := by
  rw [innerConstants, Constant.inOrder, Constant.getElem?_settleAfter, getElem?_numbered,
    getElem?_afterExtraction outer taken hvalue]
  simp

theorem nodup_inOrder_innerConstants :
    ((Constant.inOrder (innerConstants outer taken values)).map Constant.name).Nodup := by
  rw [Constant.map_name_inOrder]
  exact nodup_names_numbered _ _

/-- A name that comes later in the chain is not captured. -/
theorem inlined_readOf_of_le {i n : Nat} (hle : i ≤ n) :
    (readOf (n + 1)).inlined ((Constant.inOrder (innerConstants outer taken values)).take i) =
      readOf (n + 1) := by
  refine Expression.inlined_of_notMem fun constant hmem hname => ?_
  -- the constants before position `i` have the names of the positions before it
  have hmem' : constant.name ∈ ((innerConstants outer taken values).map Constant.name).take i := by
    rw [← Constant.map_name_inOrder, ← List.map_take]
    exact List.mem_map_of_mem hmem
  obtain ⟨j, hj⟩ := List.mem_iff_getElem?.mp hmem'
  rw [List.getElem?_take, innerConstants, List.getElem?_map, getElem?_numbered] at hj
  split at hj
  · rename_i hlt
    obtain ⟨-, hj⟩ : _ ∧ hoistedName (0 + j + 1) = constant.name := by simpa using hj
    have hread : constant.name = hoistedName (n + 1) := by
      simpa [readOf, Expression.free, Vname.free, Identifier.invented] using hname
    have := hoistedName_injective (hj.trans hread)
    omega
  · contradiction

/-- A name that came before in the chain is captured by the constant with that name. -/
theorem inlined_readOf_of_lt {i j : Nat} (hlt : j < i) {settled : Expression}
    (hslot : (Constant.inOrder (innerConstants outer taken values))[j]? =
      some ⟨hoistedName (j + 1), settled⟩) :
    (readOf (j + 1)).inlined ((Constant.inOrder (innerConstants outer taken values)).take i) =
      settled := by
  have hmem : (⟨hoistedName (j + 1), settled⟩ : Constant) ∈
      (Constant.inOrder (innerConstants outer taken values)).take i := by
    refine List.mem_iff_getElem?.mpr ⟨j, ?_⟩
    rw [List.getElem?_take_of_lt hlt, hslot]
  have hnodup := nodup_inOrder_innerConstants.sublist
    ((List.take_sublist i (Constant.inOrder (innerConstants outer taken values))).map Constant.name)
  exact Constant.inlined_reading hnodup hmem

/-- **The constants of an inner chain.**  A read of an outer constant that is captured stands for a
value that the outer loop would not have taken; every other constant stands for its value as
written. -/
theorem exists_settled (outer : List String) (taken : Nat)
    (hvalues : ∀ value ∈ values, value.isReading = false) :
    ∀ {i : Nat} {value : Expression}, values[i]? = some value →
      ∃ settled, (Constant.inOrder (innerConstants outer taken values))[i]? =
          some ⟨hoistedName (i + 1), settled⟩ ∧
        if value.isInvariant outer = true ∧
            taken + (values.take i).countP (·.isInvariant outer) < i then
          settled.isInvariant outer = false
        else (afterExtraction outer taken values)[i]? = some settled := by
  intro i
  induction i using Nat.strongRecOn with
  | ind i ih =>
      intro value hvalue
      refine ⟨_, getElem?_inOrder_innerConstants hvalue, ?_⟩
      by_cases hinvariant : value.isInvariant outer = true
      · let j := taken + (values.take i).countP (·.isInvariant outer)
        by_cases hlt : j < i
        · -- the read has the name of the earlier position `j` and gets what stands there
          rw [if_pos ⟨hinvariant, hlt⟩, if_pos hinvariant]
          have hlength : i < values.length := (List.getElem?_eq_some_iff.mp hvalue).1
          have hother : values[j]? = some values[j] := List.getElem?_eq_getElem _
          obtain ⟨settled, hslot, hsettled⟩ := ih j hlt hother
          rw [inlined_readOf_of_lt hlt hslot]
          by_cases hother' : (values[j]).isInvariant outer = true
          · -- a read again: the outer loop took it before the value at `i`, so it is captured too
            have hcount := countP_take_lt (·.isInvariant outer) hlt hother hother'
            rw [if_pos ⟨hother', by omega⟩] at hsettled
            exact hsettled
          · -- a value that the inner loop has for itself
            rw [if_neg (by simp [hother']), getElem?_afterExtraction outer taken hother,
              if_neg hother'] at hsettled
            obtain rfl := Option.some.inj hsettled
            simpa using hother'
        · -- the name is this one or comes later, so nothing in the chain has it yet
          rw [if_neg (fun h => hlt h.2), getElem?_afterExtraction outer taken hvalue,
            if_pos hinvariant, inlined_readOf_of_le (Nat.le_of_not_lt hlt)]
      · -- the inner loop alone takes it, and it is no read that could be captured
        have hreading := hvalues value (List.mem_of_getElem? hvalue)
        rw [if_neg (fun h => hinvariant h.1), getElem?_afterExtraction outer taken hvalue,
          if_neg hinvariant, Expression.inlined_of_not_isReading _ hreading]
        intro constant hmem
        exact Constant.reserved_of_mem_inOrder (fun _ => reserved_of_mem_numbered) constant
          (List.mem_of_mem_take hmem)

/-- A constant of an inner chain, by its position. -/
theorem exists_of_mem_innerConstants {constant : Constant}
    (hmem : constant ∈ innerConstants outer taken values) :
    ∃ i value, values[i]? = some value ∧ constant.name = hoistedName (i + 1) ∧
      (afterExtraction outer taken values)[i]? = some constant.value := by
  obtain ⟨i, hi⟩ := List.mem_iff_getElem?.mp hmem
  rw [innerConstants, getElem?_numbered, Option.map_eq_some_iff] at hi
  obtain ⟨written, hwritten, rfl⟩ := hi
  have hlength : i < values.length := by
    have := (List.getElem?_eq_some_iff.mp hwritten).1
    simpa using this
  exact ⟨i, values[i], List.getElem?_eq_getElem hlength, by simp, hwritten⟩

theorem mem_innerConstants {i : Nat} {written : Expression}
    (hwritten : (afterExtraction outer taken values)[i]? = some written) :
    (⟨hoistedName (i + 1), written⟩ : Constant) ∈ innerConstants outer taken values := by
  refine List.mem_iff_getElem?.mpr ⟨i, ?_⟩
  rw [innerConstants, getElem?_numbered, hwritten]
  simp

theorem reading_inlined_inOrder {i : Nat} {constant : Constant} {settled : Expression}
    (hname : constant.name = hoistedName (i + 1))
    (hslot : (Constant.inOrder (innerConstants outer taken values))[i]? =
      some ⟨hoistedName (i + 1), settled⟩) :
    constant.reading.inlined (Constant.inOrder (innerConstants outer taken values)) = settled := by
  have hreading : constant.reading = (⟨hoistedName (i + 1), settled⟩ : Constant).reading := by
    rw [Constant.reading, Constant.reading, hname]
  rw [hreading]
  exact Constant.inlined_reading nodup_inOrder_innerConstants (List.mem_of_getElem? hslot)

end

/-! ## In step means nothing is captured -/

/-- In step, the constants of an inner loop stand for their values as written. -/
theorem Nested.InStep.inOrder_eq_self {outer : List String} {nest : Nested}
    (hstep : nest.InStep outer) (hvalues : ∀ value ∈ nest.body.taken, value.isReading = false) :
    Constant.inOrder (innerConstants outer nest.taken nest.body.taken) =
      innerConstants outer nest.taken nest.body.taken := by
  refine List.ext_getElem? fun i => ?_
  cases hvalue : nest.body.taken[i]? with
  | none =>
      have hlength : (innerConstants outer nest.taken nest.body.taken).length ≤ i := by
        simpa [innerConstants] using List.getElem?_eq_none_iff.mp hvalue
      rw [List.getElem?_eq_none_iff.mpr hlength, List.getElem?_eq_none_iff, ← List.length_map,
        Constant.map_name_inOrder, List.length_map]
      exact hlength
  | some value =>
      obtain ⟨settled, hslot, hsettled⟩ := exists_settled outer nest.taken hvalues hvalue
      have hnot : ¬ (value.isInvariant outer = true ∧
          nest.taken + (nest.body.taken.take i).countP (·.isInvariant outer) < i) := by
        rintro ⟨hinvariant, hlt⟩
        have := Nested.inStep_iff.mp hstep i value hvalue hinvariant
        omega
      rw [if_neg hnot] at hsettled
      rw [hslot, innerConstants, getElem?_numbered, hsettled]
      simp

/-- Out of step, some constant of the inner loop stands for something else. -/
theorem Nested.inStep_of_reading_inlined {outer : List String} {nest : Nested}
    (houter : ∀ name ∈ outer, ¬ Reserved name)
    (hvalues : ∀ value ∈ nest.body.taken, value.isReading = false)
    (hinlined : ∀ constant ∈ innerConstants outer nest.taken nest.body.taken,
      constant.reading.inlined
        (Constant.inOrder (innerConstants outer nest.taken nest.body.taken)) = constant.value) :
    nest.InStep outer := by
  refine Nested.inStep_iff.mpr fun i value hvalue hinvariant => Nat.le_of_not_lt fun hlt => ?_
  obtain ⟨settled, hslot, hsettled⟩ := exists_settled outer nest.taken hvalues hvalue
  rw [if_pos ⟨hinvariant, hlt⟩] at hsettled
  have hwritten := getElem?_afterExtraction outer nest.taken hvalue
  rw [if_pos hinvariant] at hwritten
  have hread := hinlined _ (mem_innerConstants hwritten)
  rw [reading_inlined_inOrder rfl hslot] at hread
  rw [hread, isInvariant_of_isReading houter (isReading_readOf _)] at hsettled
  contradiction

end LoopHoist
