import Mathlib.Data.List.Basic

/-!
# Redacting nested documents

Documents of nested arrays and objects, over any keys and scalars.  Some keys are
hidden: what is stored under them at any depth is replaced by a mark.  Two documents
agree if they differ only in what is stored under hidden keys, which is the case exactly
if they are redacted to the same document.
-/

namespace BrokeTurnkey

/-- Nested arrays and objects; an object lists its keys in order. -/
inductive Document (κ α : Type) where
  | scalar (value : α)
  | arr (items : List (Document κ α))
  | obj (fields : List (κ × Document κ α))

namespace Document

variable {κ α : Type}

/-- The induction over arrays and objects by their members. -/
@[elab_as_elim] theorem induction {motive : Document κ α → Prop}
    (scalar : ∀ value, motive (.scalar value))
    (arr : ∀ items, (∀ item ∈ items, motive item) → motive (.arr items))
    (obj : ∀ fields, (∀ field ∈ fields, motive field.2) → motive (.obj fields)) :
    ∀ document, motive document := by
  intro document
  refine @Document.rec κ α motive (fun items => ∀ item ∈ items, motive item)
    (fun fields => ∀ field ∈ fields, motive field.2) (fun field => motive field.2) scalar arr obj
    ?_ ?_ ?_ ?_ ?_ document
  · exact nofun
  · intro item items hitem hitems
    exact List.forall_mem_cons.mpr ⟨hitem, hitems⟩
  · exact nofun
  · intro field fields hfield hfields
    exact List.forall_mem_cons.mpr ⟨hfield, hfields⟩
  · exact fun _ _ h => h

section Redact

variable (hidden : κ → Bool) (mark : α)

mutual

/-- The mark in place of what is stored under hidden keys. -/
def redact : Document κ α → Document κ α
  | .scalar value => .scalar value
  | .arr items => .arr (redactItems items)
  | .obj fields => .obj (redactFields fields)

def redactItems : List (Document κ α) → List (Document κ α)
  | [] => []
  | item :: rest => redact item :: redactItems rest

def redactFields : List (κ × Document κ α) → List (κ × Document κ α)
  | [] => []
  | (key, value) :: rest =>
    (key, if hidden key then .scalar mark else redact value) :: redactFields rest

end

/-- A field after redaction. -/
def redactField (field : κ × Document κ α) : κ × Document κ α :=
  (field.1, if hidden field.1 then .scalar mark else redact hidden mark field.2)

@[simp] theorem redact_scalar (value : α) :
    redact hidden mark (.scalar value : Document κ α) = .scalar value := by
  rw [redact]

@[simp] theorem redact_arr (items : List (Document κ α)) :
    redact hidden mark (.arr items) = .arr (items.map (redact hidden mark)) := by
  rw [redact]
  congr 1
  induction items with
  | nil => rw [redactItems, List.map_nil]
  | cons item rest ih => rw [redactItems, List.map_cons, ih]

@[simp] theorem redact_obj (fields : List (κ × Document κ α)) :
    redact hidden mark (.obj fields) = .obj (fields.map (redactField hidden mark)) := by
  rw [redact]
  congr 1
  induction fields with
  | nil => rw [redactFields, List.map_nil]
  | cons field rest ih => rw [redactFields, List.map_cons, ih, redactField]

end Redact

/-! ### Agreement -/

/-- The documents differ only in what is stored under hidden keys. -/
inductive Agree (hidden : κ → Bool) : Document κ α → Document κ α → Prop where
  | scalar (value : α) : Agree hidden (.scalar value) (.scalar value)
  | arr {items items' : List (Document κ α)} (hlength : items.length = items'.length)
      (hitems : ∀ (i : Nat) item item', items[i]? = some item → items'[i]? = some item' →
        Agree hidden item item') : Agree hidden (.arr items) (.arr items')
  | obj {fields fields' : List (κ × Document κ α)}
      (hkeys : fields.map Prod.fst = fields'.map Prod.fst)
      (hfields : ∀ (i : Nat) key value value', fields[i]? = some (key, value) →
        fields'[i]? = some (key, value') → hidden key = false → Agree hidden value value') :
      Agree hidden (.obj fields) (.obj fields')

variable {hidden : κ → Bool} {mark : α}

/-- Documents that agree are redacted alike. -/
theorem Agree.redact_eq {document other : Document κ α} (h : Agree hidden document other) :
    redact hidden mark document = redact hidden mark other := by
  induction h with
  | scalar value => rfl
  | @arr items items' hlength hitems ih =>
    rw [redact_arr, redact_arr]
    congr 1
    apply List.ext_getElem?
    intro i
    rw [List.getElem?_map, List.getElem?_map]
    cases hitem : items[i]? with
    | none =>
      rw [List.getElem?_eq_none (hlength ▸ List.getElem?_eq_none_iff.mp hitem)]
    | some item =>
      obtain ⟨hi, _⟩ := List.getElem?_eq_some_iff.mp hitem
      have hitem' := List.getElem?_eq_getElem (hlength ▸ hi)
      rw [hitem', Option.map_some, Option.map_some, ih i _ _ hitem hitem']
  | @obj fields fields' hkeys hfields ih =>
    rw [redact_obj, redact_obj]
    congr 1
    apply List.ext_getElem?
    intro i
    have hkey := congrArg (fun keys => keys[i]?) hkeys
    simp only [List.getElem?_map] at hkey ⊢
    cases hfield : fields[i]? with
    | none =>
      rw [hfield, Option.map_none, eq_comm, Option.map_eq_none_iff] at hkey
      rw [hkey]
    | some field =>
      rw [hfield, Option.map_some, eq_comm, Option.map_eq_some_iff] at hkey
      obtain ⟨field', hfield', hfst⟩ := hkey
      obtain ⟨key, value⟩ := field
      obtain ⟨key', value'⟩ := field'
      obtain rfl : key' = key := hfst
      rw [hfield', Option.map_some, Option.map_some, redactField, redactField]
      cases hhidden : hidden key' with
      | true => rfl
      | false => rw [if_neg Bool.noConfusion, ih i _ _ _ hfield hfield' hhidden]; rfl

theorem Agree.of_redact_eq {document : Document κ α} : ∀ {other : Document κ α},
    redact hidden mark document = redact hidden mark other → Agree hidden document other := by
  induction document using Document.induction with
  | scalar value =>
    intro other h
    cases other with
    | scalar value' =>
      rw [redact_scalar, redact_scalar, Document.scalar.injEq] at h
      exact h ▸ .scalar value
    | arr items' => simp at h
    | obj fields' => simp at h
  | arr items ih =>
    intro other h
    cases other with
    | scalar value' => simp at h
    | arr items' =>
      rw [redact_arr, redact_arr, Document.arr.injEq] at h
      refine .arr (by simpa using congrArg List.length h) fun i item item' hitem hitem' => ?_
      have hat := congrArg (fun items => items[i]?) h
      simp only [List.getElem?_map, hitem, hitem', Option.map_some, Option.some.injEq] at hat
      exact ih item (List.mem_of_getElem? hitem) hat
    | obj fields' => simp at h
  | obj fields ih =>
    intro other h
    cases other with
    | scalar value' => simp at h
    | arr items' => simp at h
    | obj fields' =>
      rw [redact_obj, redact_obj, Document.obj.injEq] at h
      refine .obj ?_ fun i key value value' hfield hfield' hvisible => ?_
      · have hkeys := congrArg (List.map Prod.fst) h
        simpa only [List.map_map, Function.comp_def, redactField] using hkeys
      · have hat := congrArg (fun fields => fields[i]?) h
        simp only [List.getElem?_map, hfield, hfield', Option.map_some, Option.some.injEq,
          redactField, hvisible, Prod.mk.injEq, true_and] at hat
        exact ih (key, value) (List.mem_of_getElem? hfield) hat

/-- **Documents agree exactly if they are redacted alike.** -/
theorem agree_iff {document other : Document κ α} :
    Agree hidden document other ↔ redact hidden mark document = redact hidden mark other :=
  ⟨Agree.redact_eq, Agree.of_redact_eq⟩

/-! ### Visible keys -/

/-- The key is used outside of what is stored under hidden keys. -/
inductive Shows (hidden : κ → Bool) (key : κ) : Document κ α → Prop where
  | item {items : List (Document κ α)} {item : Document κ α} (hitem : item ∈ items)
      (h : Shows hidden key item) : Shows hidden key (.arr items)
  | here {fields : List (κ × Document κ α)} {field : κ × Document κ α} (hfield : field ∈ fields)
      (hkey : field.1 = key) : Shows hidden key (.obj fields)
  | field {fields : List (κ × Document κ α)} {field : κ × Document κ α} (hfield : field ∈ fields)
      (hvisible : hidden field.1 = false) (h : Shows hidden key field.2) :
      Shows hidden key (.obj fields)

theorem not_shows_scalar (key : κ) (value : α) : ¬Shows hidden key (.scalar value) := nofun

theorem shows_arr_iff {key : κ} {items : List (Document κ α)} :
    Shows hidden key (.arr items) ↔ ∃ item ∈ items, Shows hidden key item := by
  constructor
  · rintro ⟨hitem, h⟩
    exact ⟨_, hitem, h⟩
  · rintro ⟨item, hitem, h⟩
    exact .item hitem h

theorem shows_obj_iff {key : κ} {fields : List (κ × Document κ α)} :
    Shows hidden key (.obj fields) ↔
      ∃ field ∈ fields, field.1 = key ∨ hidden field.1 = false ∧ Shows hidden key field.2 := by
  constructor
  · intro h
    cases h with
    | here hfield hkey => exact ⟨_, hfield, .inl hkey⟩
    | field hfield hvisible h => exact ⟨_, hfield, .inr ⟨hvisible, h⟩⟩
  · rintro ⟨field, hfield, hkey | ⟨hvisible, h⟩⟩
    · exact .here hfield hkey
    · exact .field hfield hvisible h

end Document

end BrokeTurnkey
