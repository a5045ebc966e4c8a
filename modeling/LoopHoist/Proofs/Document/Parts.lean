import LoopHoist.Document.Text
import LoopHoist.Proofs.Document.Spelling
import Mathlib.Data.List.Basic

/-!
# Taking spellings apart

A node is read in two steps: the value is taken apart into the kind and the parts of the fields, and
then each field is read from the parts.  This file is about what the two steps do to a value that
spells the node.

## Strategy

What is known about the parts is put in a form in which the named and the placed ones do not differ:
`Fits` says that each field is read as every value that spells it is read, and that nothing is left
over.  `fits_named` and `fits_placed` show this for the two forms, and are used three times each:
for a node with a kind (`Family.Distinct.exists_split`), for one without (`exists_splitGroup`) and
for what stands alone (`exists_groupParts`).

`Family.Node.Reads` is the same for one field of a node.  Its lemmas are what the proof about a kind
cites: one for each sort of field.
-/

namespace LoopHoist.Document

/-! ## Parts and the values they were taken from -/

theorem Value.map_val_elementParts (elements : List Value) :
    (elementParts elements).map Subtype.val = elements := by
  simp [elementParts, Function.comp_def]

theorem Value.map_val_entryParts (entries : List (Key × Value)) :
    (entryParts entries).map (fun entry => (entry.1, entry.2.1)) = entries := by
  rw [entryParts, List.map_map]
  exact List.attach_map_subtype_val entries

theorem readAll_of_eq_sequence {whole : Value} {α : Type} (read : Value → Reading α)
    {part : whole.Part} {values : List Value} (hpart : part.1 = .sequence values) :
    readAll (fun part : whole.Part => read part.1) part = values.mapM read := by
  obtain ⟨value, hsize⟩ := part
  subst hpart
  rw [readAll, Value.Part.elements]
  conv_rhs => rw [← Value.map_val_elementParts values]
  simp only [List.mapM_map]
  rfl

theorem mapM_cons_eq_ok {α : Type} {read : Value → Reading α} {first : Value} {others : List Value}
    {item : α} {items : List α} (hfirst : read first = .ok item)
    (hothers : others.mapM read = .ok items) :
    (first :: others).mapM read = .ok (item :: items) := by
  rw [List.mapM_cons, hfirst, hothers]
  rfl

/-! ## Groups of fields, taken apart -/

section Fits

variable {β : Type}

/-- Reading a field from these parts gives what every value that spells the field is read as, also
when the field is left out. -/
def FieldSpelling.IsReadFrom (field : FieldSpelling) (valueOf : β → Value) (form : Form)
    (parts : Parts β) : Prop :=
  ∀ {α : Type} {absent : Reading α × Reading α} {read : β → Reading α} {a : α},
    (∀ part, field.spells (valueOf part) → read part = .ok a) →
    (field.omissible → absent = (.ok a, .ok a)) →
    form.field parts field.name absent read = .ok a

/-- The parts hold these fields and nothing that is in their way. -/
structure Fits (valueOf : β → Value) (form : Form) (parts : Parts β) (fields : List FieldSpelling) :
    Prop where
  reads : ∀ field ∈ fields, field.IsReadFrom valueOf form parts
  close : ∀ {α : Type} (surplus : Fault) (a : α), form.close parts surplus (.ok a) = .ok a

variable {valueOf : β → Value} {form : Form} {fields : List FieldSpelling}

theorem map_snd_entriesOf (form : Form) (name : String) (entries : List (Key × β)) :
    (form.entriesOf name entries).map Prod.snd =
      (entries.filter fun entry => form.isKeyOf name entry.1).map Prod.snd := by
  -- wherever the numbering starts, since the rest of the list starts later
  have hfrom : ∀ (entries : List (Key × β)) (start : Nat),
      ((entries.zipIdx start).filterMap fun placed =>
        if form.isKeyOf name placed.1.1 then some (placed.2, placed.1.2) else none).map Prod.snd =
      (entries.filter fun entry => form.isKeyOf name entry.1).map Prod.snd := by
    intro entries
    induction entries with
    | nil => simp
    | cons entry rest ih =>
        intro start
        by_cases hkey : form.isKeyOf name entry.1 <;> simp [List.zipIdx_cons, hkey, ih]
  exact hfrom entries 0

/-- These entries have names for keys, and these are their names and values. -/
def Under (valueOf : β → Value) (entries : List (Key × β)) (named : List (String × Value)) : Prop :=
  entries.map (fun entry => (entry.1, valueOf entry.2)) =
    named.map fun entry => (Key.name entry.1, entry.2)

namespace Under

variable {entries : List (Key × β)} {named : List (String × Value)}

theorem filter (hunder : Under valueOf entries named) (p : Key → Bool) :
    Under valueOf (entries.filter fun entry => p entry.1)
      (named.filter fun entry => p (.name entry.1)) := by
  have hfilter := congrArg (List.filter fun entry => p entry.1) hunder
  simpa only [Under, List.filter_map, Function.comp_def] using hfilter

theorem map_value (hunder : Under valueOf entries named) :
    entries.map (fun entry => valueOf entry.2) = named.map Prod.snd := by
  have hsnd := congrArg (List.map Prod.snd) hunder
  simpa only [List.map_map, Function.comp_def] using hsnd

theorem map_entriesOf (hunder : Under valueOf entries named) (form : Form) (name : String) :
    (form.entriesOf name entries).map (fun entry => valueOf entry.2) = valuesUnder name named :=
  calc (form.entriesOf name entries).map (fun entry => valueOf entry.2)
      = ((form.entriesOf name entries).map Prod.snd).map valueOf := by
        rw [List.map_map, Function.comp_def]
    _ = (entries.filter fun entry => form.isKeyOf name entry.1).map
          (fun entry => valueOf entry.2) := by
        rw [map_snd_entriesOf, List.map_map, Function.comp_def]
    _ = valuesUnder name named := (hunder.filter (form.isKeyOf name)).map_value

theorem map_kindEntries (hunder : Under valueOf entries named) :
    (entries.filter Family.isKindEntry).map (fun entry => valueOf entry.2) =
      valuesUnder "kind" named :=
  (hunder.filter fun key => Family.isKindEntry (key, ())).map_value

theorem filter_not_isKindEntry (hunder : Under valueOf entries named) :
    Under valueOf (entries.filter fun entry => !Family.isKindEntry entry)
      (named.filter fun entry => !(entry.1 == "kind")) :=
  hunder.filter fun key => !Family.isKindEntry (key, ())

theorem badKey?_eq_none (hunder : Under valueOf entries named) : Form.badKey? entries = none := by
  rw [Form.badKey?, List.findSome?_eq_none_iff]
  rintro ⟨⟨key, part⟩, place⟩ hentry
  have hmem : (key, valueOf part) ∈ entries.map fun entry => (entry.1, valueOf entry.2) :=
    List.mem_map_of_mem (List.fst_mem_of_mem_zipIdx hentry)
  rw [hunder] at hmem
  obtain ⟨entry, -, hname⟩ := List.mem_map.mp hmem
  obtain ⟨rfl, -⟩ := Prod.mk.inj hname
  rfl

end Under

theorem fits_named {entries : List (Key × β)} {named : List (String × Value)}
    (hunder : Under valueOf entries named)
    (hfields : ∀ field ∈ fields,
      (∃ value, valuesUnder field.name named = [value] ∧ field.spells value) ∨
        valuesUnder field.name named = [] ∧ field.omissible) :
    Fits valueOf form (.named entries) fields where
  reads field hfield _ absent read a hread hlacks := by
    -- a field stands under its name once, or it may be left out and is
    rcases hfields field hfield with ⟨value, hvalue, hspells⟩ | ⟨hnone, homissible⟩
    · rw [← hunder.map_entriesOf form] at hvalue
      obtain ⟨⟨place, part⟩, hentries, hpart⟩ := List.map_eq_singleton_iff.mp hvalue
      simp only [Form.field, hentries, hread part (hpart ▸ hspells)]
      rfl
    · rw [← hunder.map_entriesOf form, List.map_eq_nil_iff] at hnone
      simp only [Form.field, hnone, hlacks homissible]
      rfl
  close surplus a := by
    simp only [Form.close, hunder.badKey?_eq_none]
    rfl

theorem fits_placed {elements : List β} {written left : List FieldSpelling}
    (hnames : form.fields = (written ++ left).map FieldSpelling.name) (hnodup : form.fields.Nodup)
    (hwritten : List.Forall₂ FieldSpelling.spells written (elements.map valueOf))
    (hleft : ∀ field ∈ left, field.omissible) :
    Fits valueOf form (.placed elements) (written ++ left) := by
  have hlength : written.length = elements.length := by simpa using hwritten.length_eq
  constructor
  · intro field hfield _ absent read a hread hlacks
    obtain ⟨index, hindex, rfl⟩ := List.getElem_of_mem hfield
    -- No two fields share a name, so a field is looked for at its own place.
    have hplace : form.fields.idxOf (written ++ left)[index].name = index := by
      have hself := hnodup.idxOf_getElem index (by simpa [hnames] using hindex)
      simpa only [hnames, List.getElem_map] using hself
    rw [Form.field, hplace]
    by_cases hlt : index < elements.length
    · have hspells : (written ++ left)[index].spells (valueOf elements[index]) := by
        have hat := hwritten.get (hlength ▸ hlt) (by simpa using hlt)
        simpa [List.getElem_append_left (hlength ▸ hlt)] using hat
      rw [List.getElem?_eq_getElem hlt]
      simp only [hread _ hspells]
      rfl
    · have homissible : (written ++ left)[index].omissible := by
        rw [List.getElem_append_right (by omega)]
        exact hleft _ (List.getElem_mem _)
      simp [List.getElem?_eq_none (by omega : elements.length ≤ index), hlacks homissible]
      rfl
  · intro α surplus a
    simp [Form.close, hnames, hlength]

end Fits

/-! ## Nodes, taken apart -/

section Nodes

open Family

variable {κ : Type} {value : Value} {fields : List FieldSpelling}

/-- A node reads a field as what spells it is read. -/
def Family.Node.Reads (node : Node κ value) (field : FieldSpelling) : Prop :=
  field.IsReadFrom Subtype.val node.form node.parts

/-- What `Fits` says about a node. -/
structure Family.Node.Holds (node : Node κ value) (fields : List FieldSpelling) : Prop where
  reads : fields.Forall node.Reads
  close : ∀ {α : Type} (a : α), node.close (.ok a) = .ok a

theorem Fits.holds {node : Node κ value} (hfits : Fits Subtype.val node.form node.parts fields) :
    node.Holds fields :=
  ⟨List.forall_iff_forall_mem.mpr hfits.reads, fun a => hfits.close _ a⟩

theorem under_entryParts (named : List (String × Value)) :
    Under Subtype.val (Value.entryParts (named.map fun entry => (Key.name entry.1, entry.2)))
      named :=
  Value.map_val_entryParts _

theorem readKind_of_find? {family : Family κ} {name : String} {kind : Kind κ} (place : Place)
    (hkind : (family.kinds.find? fun kind => kind.name == name) = some kind) {first : Value}
    (hfirst : first = .text name) : family.readKind place first.found = .ok kind := by
  simp only [hfirst, Value.found, readKind, hkind]

theorem valuesUnder_filter_kind {name : String} (hname : name ≠ "kind")
    (entries : List (String × Value)) :
    valuesUnder name (entries.filter fun entry => !(entry.1 == "kind")) =
      valuesUnder name entries := by
  rw [valuesUnder, List.filter_filter, valuesUnder]
  congr 1
  refine List.filter_congr fun entry _ => ?_
  by_cases hentry : entry.1 = name <;> simp [hentry, hname]

/-- No kind of the family has two fields of one name, or one with the name `kind`. -/
def Family.Distinct (family : Family κ) : Prop :=
  ∀ kind ∈ family.kinds, ("kind" :: kind.fields).Nodup

instance (family : Family κ) : Decidable family.Distinct :=
  inferInstanceAs (Decidable (∀ kind ∈ family.kinds, ("kind" :: kind.fields).Nodup))

/-- A value that spells a kind of the family is taken apart into a node that holds the fields. -/
theorem Family.Distinct.exists_split {family : Family κ} (hdistinct : family.Distinct) {tag : κ}
    {name label : String} (place : Place)
    (hkind : (family.kinds.find? fun kind => kind.name == name) =
      some ⟨tag, name, label, fields.map FieldSpelling.name⟩)
    (hspells : SpellsGroup (some name) fields value) :
    ∃ node, family.split place value = .ok node ∧ node.tag = tag ∧ node.Holds fields := by
  obtain ⟨hnokind, hnodup⟩ := List.nodup_cons.mp (hdistinct _ (List.mem_of_find?_eq_some hkind))
  cases hspells with
  | @named entries hkinds hfields =>
      -- One entry gives the kind.  The entries of the fields are all among the others, because no
      -- field has its name.
      have hunder := under_entryParts entries
      have hone := hunder.map_kindEntries
      rw [hkinds name rfl] at hone
      obtain ⟨⟨key, first⟩, hentries, hfirst⟩ := List.map_eq_singleton_iff.mp hone
      refine ⟨⟨tag, family.form ⟨tag, name, label, fields.map FieldSpelling.name⟩, .named _⟩, ?_,
        rfl, (fits_named hunder.filter_not_isKindEntry fun field hfield => ?_).holds⟩
      · simp only [Value.ofFields, split, hentries, readKind_of_find? place hkind hfirst]
      · have hname : field.name ≠ "kind" := fun heq =>
          hnokind (heq ▸ List.mem_map_of_mem hfield)
        rw [valuesUnder_filter_kind hname]
        exact hfields field hfield
  | @placed written left values hsplit hwritten hleft =>
      subst hsplit
      change ∃ node : Node κ (.sequence (.text name :: values)),
        family.split place (.sequence (.text name :: values)) = .ok node ∧ node.tag = tag ∧
          node.Holds (written ++ left)
      -- the kind comes first, and the fields take the places after it
      have hparts := Value.map_val_elementParts (.text name :: values)
      obtain ⟨first, rest, hentries, hfirst, hrest⟩ := List.map_eq_cons_iff.mp hparts
      refine ⟨⟨tag, family.form ⟨tag, name, label, (written ++ left).map FieldSpelling.name⟩,
        .placed rest⟩, ?_, rfl, Fits.holds (fits_placed rfl hnodup (by rwa [hrest]) hleft)⟩
      simp only [split, hentries, readKind_of_find? place hkind hfirst]

theorem exists_splitGroup (label : String) (names : List String)
    (hnames : names = fields.map FieldSpelling.name) (hnodup : names.Nodup)
    (hspells : SpellsGroup none fields value) :
    ∃ node, splitGroup label names value = .ok node ∧ node.Holds fields := by
  cases hspells with
  | @named entries _ hfields =>
      exact ⟨_, rfl, (fits_named (under_entryParts entries) hfields).holds⟩
  | @placed written left values hsplit hwritten hleft =>
      subst hsplit
      refine ⟨_, rfl, Fits.holds (fits_placed hnames hnodup ?_ hleft)⟩
      rw [Value.map_val_elementParts]
      exact hwritten

theorem under_id (named : List (String × Value)) :
    Under id (named.map fun entry => (Key.name entry.1, entry.2)) named := by
  simp [Under]

theorem exists_groupParts (label : String) (form : Form)
    (hnames : form.fields = fields.map FieldSpelling.name)
    (hnodup : form.fields.Nodup) (hspells : SpellsGroup none fields value) :
    ∃ parts, groupParts label value = .ok parts ∧ Fits id form parts fields := by
  cases hspells with
  | @named entries _ hfields => exact ⟨_, rfl, fits_named (under_id entries) hfields⟩
  | @placed written left values hsplit hwritten hleft =>
      subst hsplit
      exact ⟨_, rfl, fits_placed hnames hnodup (by rwa [List.map_id]) hleft⟩

/-! ## Fields of a node -/

namespace Family.Node.Reads

variable {node : Node κ value} {name : String} {α : Type}

theorem required {spells : Value → Prop} (hreads : node.Reads (.required name spells))
    {read : Value → Reading α} {a : α} (hread : ∀ value, spells value → read value = .ok a) :
    node.required name (fun part => read part.1) = .ok a :=
  hreads (fun part => hread part.1) False.elim

theorem text {content : String} (hreads : node.Reads (.text name content)) :
    node.required name (fun part => readText part.1) = .ok content :=
  hreads.required fun _ hvalue => by rw [hvalue, readText]

theorem list {spells : List Value → Prop} (hreads : node.Reads (.list name spells))
    {read : Value → Reading α} {items : List α}
    (hread : ∀ values, spells values → values.mapM read = .ok items) :
    node.required name (readAll fun part => read part.1) = .ok items := by
  refine hreads (fun part hpart => ?_) False.elim
  obtain ⟨values, hvalues, hspells⟩ := hpart
  rw [readAll_of_eq_sequence read hvalues, hread values hspells]

theorem optional {spells : List Value → Prop} {items : List α}
    (hreads : node.Reads (.optional name items spells)) {read : Value → Reading α}
    (hread : ∀ values, spells values → values.mapM read = .ok items) :
    node.optional name (readAll fun part => read part.1) = .ok items := by
  refine hreads (fun part hpart => ?_) fun hnil => by rw [show items = [] from hnil]
  obtain ⟨values, hvalues, hspells⟩ := hpart
  rw [readAll_of_eq_sequence read hvalues, hread values hspells]

end Family.Node.Reads

theorem Family.Node.bare_eq_ok (node : Node κ value)
    (hclose : ∀ {α : Type} (a : α), node.close (.ok a) = .ok a) {α : Type} (a : α) :
    node.bare a = .ok a := by
  unfold bare
  split
  · rfl
  · exact hclose a

end Nodes

end LoopHoist.Document
