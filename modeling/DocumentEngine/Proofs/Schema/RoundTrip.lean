import DocumentEngine.Proofs.Json.Printed
import DocumentEngine.Schema.Json
import Mathlib

/-!
Schemas in JSON and back. The record of a schema is read as the schema with its fields settled: a
kind is what its type name and its values stand for, and no identifier is nullable. A schema that
was read is settled, so that it is read again from its own record, with the same verdict on its
structure.
-/

namespace DocumentEngine

open Json (Written object written)

/-! Records -/

namespace Json

theorem writtenItems_eq_map (items : List Json) : writtenItems items = items.map written := by
  induction items with
  | nil => rfl
  | cons v vs ih => rw [writtenItems, ih, List.map_cons]

theorem writtenMembers_eq_map (members : List (String × Json)) :
    writtenMembers members = members.map fun member => (some member.1, member.2.written) := by
  induction members with
  | nil => rfl
  | cons member members ih => rw [writtenMembers, ih, List.map_cons]

theorem written_str (s : String) : (Json.str s).written = .str (some s) := rfl

theorem mapM_eq_some_map {α β : Type} {f : α → Option β} {g : α → β} {xs : List α}
    (h : ∀ x ∈ xs, f x = some (g x)) : xs.mapM f = some (xs.map g) := by
  induction xs with
  | nil => rfl
  | cons x xs ih =>
    rw [List.forall_mem_cons] at h
    rw [List.mapM_cons, h.1, ih h.2]
    rfl

namespace Written

variable {α : Type} {item : Written → Option α}

theorem member?_of_nodup {members : List (String × Written)} (h : (members.map Prod.fst).Nodup)
    (name : String) : member? members name = some (Keyed.get? members name) := by
  induction members with
  | nil => rfl
  | cons member members ih =>
    rw [List.map_cons, List.nodup_cons] at h
    by_cases hname : member.1 = name
    · have hrest : members.filter (fun m => m.1 == name) = [] := by
        rw [List.filter_eq_nil_iff]
        intro m hm hkey
        exact h.1 (hname ▸ List.mem_map.mpr ⟨m, hm, eq_of_beq hkey⟩)
      rw [member?, List.filter_cons_of_pos (by simpa using hname), hrest, Keyed.get?_cons,
        if_pos hname]
    · rw [Keyed.get?_cons, if_neg hname, ← ih h.2, member?, member?,
        List.filter_cons_of_neg (by simpa using hname)]

/-- The members of an object that was written are found under their names, whatever their order. -/
theorem record?_object {entries : List (String × Json)} (h : (entries.map Prod.fst).Nodup)
    (names : List String) : record? names (object entries).written =
      some (names.map fun name => (Keyed.get? entries name).map written) := by
  have hkeys : ((Keyed.ofList entries).map Prod.fst).Nodup :=
    (Keyed.ascending_union .nil entries).nodup_keys
  have hnamed : (writtenMembers (Keyed.ofList entries)).mapM (fun m => m.1.map fun k => (k, m.2)) =
      some ((Keyed.ofList entries).map fun entry => (entry.1, entry.2.written)) := by
    rw [writtenMembers_eq_map, List.mapM_map]
    exact mapM_eq_some_map fun _ _ => rfl
  have hnodup : (((Keyed.ofList entries).map fun entry =>
      (entry.1, entry.2.written)).map Prod.fst).Nodup := by
    rw [List.map_map]
    exact hkeys
  rw [object, Json.written, record?, hnamed]
  refine mapM_eq_some_map fun name _ => ?_
  rw [member?_of_nodup hnodup, Keyed.get?_map, Keyed.get?_ofList h]

/-- Items that are read again one by one are read again as a list. -/
theorem list?_written {β : Type} {xs : List β} {toJson : β → Json} {g : β → α}
    (h : ∀ x ∈ xs, item (toJson x).written = some (g x)) :
    list? item (Json.arr (xs.map toJson)).written = some (xs.map g) := by
  rw [Json.written, list?, writtenItems_eq_map, List.map_map, List.mapM_map]
  exact mapM_eq_some_map h

theorem list?_strings (texts : List String) :
    list? string? (Json.strings texts).written = some texts := by
  have hlist : list? string? (Json.strings texts).written = some (texts.map id) :=
    list?_written fun _ _ => rfl
  rwa [List.map_id] at hlist

theorem forall_of_required?_eq_some {p : α → Prop} (hitem : ∀ {w a}, item w = some a → p a)
    {member : Option Written} {as : List α} (h : required? (list? item) member = some as) :
    ∀ a ∈ as, p a := by
  unfold required? list? at h
  split at h
  · split at h
    · rename_i items
      induction items generalizing as with
      | nil =>
        cases h
        exact fun _ hmem => absurd hmem List.not_mem_nil
      | cons w ws ih =>
        rw [List.mapM_cons] at h
        obtain ⟨a, ha, h⟩ := Option.bind_eq_some_iff.mp h
        obtain ⟨rest, hrest, h⟩ := Option.bind_eq_some_iff.mp h
        cases h
        exact List.forall_mem_cons.mpr ⟨hitem ha, ih hrest⟩
    · cases h
  · cases h

end Written

theorem InRange.strings (texts : List String) : (Json.strings texts).InRange :=
  .arr fun v hv => by
    obtain ⟨s, -, rfl⟩ := List.mem_map.mp hv
    exact .str s

end Json

open Json (InRange)

/-! Fields -/

/-- The values that a kind lists. -/
def FieldKind.values : FieldKind → List String
  | .enumeration _ values => values
  | _ => []

namespace Field

/-- The field as its record says it: its kind by the type name and the values, and an identifier
that is not nullable. -/
def settled (f : Field) : Field :=
  { f with kind := kindOf f.kind.typeName f.kind.values, nullable := f.nullable && !f.identifier }

theorem kindOf_kindOf (typeName : String) (values : List String) :
    kindOf (kindOf typeName values).typeName (kindOf typeName values).values =
      kindOf typeName values := by
  cases values with
  | cons value values => rfl
  | nil =>
    have hscalar : ∀ kind : ScalarKind, ScalarKind.ofName? kind.name = some kind := by
      intro kind
      cases kind <;> rfl
    cases hname : ScalarKind.ofName? typeName with
    | some kind => simp [kindOf, hname, FieldKind.typeName, FieldKind.values, hscalar]
    | none => simp [kindOf, hname, FieldKind.typeName, FieldKind.values]

/-- The record of a field is read as the field, settled. -/
theorem ofWritten?_toJson (f : Field) : ofWritten? f.toJson.written = some f.settled := by
  obtain ⟨name, kind, nullable, list, identifier, inline⟩ := f
  cases kind with
  | scalar kind =>
    rw [ofWritten?, toJson, Written.record?_object (by simp)]
    rfl
  | reference target =>
    rw [ofWritten?, toJson, Written.record?_object (by simp)]
    rfl
  | enumeration typeName values =>
    cases values with
    | nil =>
      rw [ofWritten?, toJson, Written.record?_object (by simp)]
      rfl
    | cons value values =>
      rw [ofWritten?, toJson, Written.record?_object (by simp)]
      change (Written.list? Written.string? (Json.strings (value :: values)).written >>= fun read =>
        some (⟨name, kindOf typeName read, nullable && !identifier, list, identifier, inline⟩ :
          Field)) = _
      rw [Written.list?_strings]
      rfl

/-- A field that was read is settled. -/
theorem settled_of_ofWritten? {w : Written} {f : Field} (h : ofWritten? w = some f) :
    f.settled = f := by
  obtain ⟨members, -, h⟩ := Option.bind_eq_some_iff.mp h
  split at h
  · obtain ⟨name, -, h⟩ := Option.bind_eq_some_iff.mp h
    obtain ⟨type, -, h⟩ := Option.bind_eq_some_iff.mp h
    obtain ⟨values, -, h⟩ := Option.bind_eq_some_iff.mp h
    obtain ⟨nullable, -, h⟩ := Option.bind_eq_some_iff.mp h
    obtain ⟨list, -, h⟩ := Option.bind_eq_some_iff.mp h
    obtain ⟨identifier, -, h⟩ := Option.bind_eq_some_iff.mp h
    obtain ⟨inline, -, h⟩ := Option.bind_eq_some_iff.mp h
    cases h
    simp only [settled, kindOf_kindOf, Bool.and_assoc, Bool.and_self]
  · cases h

theorem inRange_toJson (f : Field) : f.toJson.InRange := by
  obtain ⟨name, kind, nullable, list, identifier, inline⟩ := f
  refine .object ?_
  cases kind with
  | scalar kind => simp [InRange.str, InRange.bool]
  | reference target => simp [InRange.str, InRange.bool]
  | enumeration typeName values =>
    cases values <;> simp [InRange.str, InRange.bool, InRange.strings]

end Field

/-! Mutation rules, types and schemas -/

namespace MutationRules

theorem ofWritten?_toJson (m : MutationRules) : ofWritten? m.toJson.written = some m := by
  rw [ofWritten?, toJson, Written.record?_object (by simp)]
  change (Written.list? Written.string? (Json.strings m.operations).written >>= fun read =>
    some (⟨m.create, m.update, m.delete, read⟩ : MutationRules)) = _
  rw [Written.list?_strings]
  rfl

theorem inRange_toJson (m : MutationRules) : m.toJson.InRange := by
  refine .object ?_
  simp [InRange.bool, InRange.strings]

end MutationRules

namespace DocumentType

/-- The type with its fields settled. -/
def settled (t : DocumentType) : DocumentType := { t with fields := t.fields.map Field.settled }

theorem ofWritten?_toJson (t : DocumentType) : ofWritten? t.toJson.written = some t.settled := by
  obtain ⟨name, fields, plural, singular, mutations⟩ := t
  have hfields : Written.list? Field.ofWritten? (Json.arr (fields.map Field.toJson)).written =
      some (fields.map Field.settled) :=
    Written.list?_written fun f _ => f.ofWritten?_toJson
  cases plural <;> cases singular <;>
  · rw [ofWritten?, toJson, Written.record?_object (by simp)]
    simp [Keyed.get?_cons, Keyed.get?, Written.required?, Written.optional?, Written.nullable?,
      Written.string?, Json.written_str, hfields, mutations.ofWritten?_toJson, settled]

theorem settled_of_ofWritten? {w : Written} {t : DocumentType} (h : ofWritten? w = some t) :
    t.settled = t := by
  obtain ⟨members, -, h⟩ := Option.bind_eq_some_iff.mp h
  split at h
  · obtain ⟨name, -, h⟩ := Option.bind_eq_some_iff.mp h
    obtain ⟨fields, hfields, h⟩ := Option.bind_eq_some_iff.mp h
    obtain ⟨plural, -, h⟩ := Option.bind_eq_some_iff.mp h
    obtain ⟨singular, -, h⟩ := Option.bind_eq_some_iff.mp h
    obtain ⟨mutations, -, h⟩ := Option.bind_eq_some_iff.mp h
    cases h
    have hall := Written.forall_of_required?_eq_some Field.settled_of_ofWritten? hfields
    rw [settled, List.map_congr_left hall, List.map_id']
  · cases h

theorem inRange_toJson (t : DocumentType) : t.toJson.InRange := by
  obtain ⟨name, fields, plural, singular, mutations⟩ := t
  have hfields : (Json.arr (fields.map Field.toJson)).InRange := .arr fun v hv => by
    obtain ⟨f, -, rfl⟩ := List.mem_map.mp hv
    exact f.inRange_toJson
  refine .object ?_
  cases plural <;> cases singular <;> simp [InRange.str, hfields, mutations.inRange_toJson]

end DocumentType

namespace Schema

/-- The schema with its fields settled. -/
def settled (s : Schema) : Schema := ⟨s.types.map DocumentType.settled⟩

/-- The record of a schema is read as the schema, settled. -/
theorem ofJson?_toJson (s : Schema) : ofJson? s.toJson = some s.settled := by
  have htypes : Written.list? DocumentType.ofWritten?
      (Json.arr (s.types.map DocumentType.toJson)).written =
        some (s.types.map DocumentType.settled) :=
    Written.list?_written fun t _ => t.ofWritten?_toJson
  rw [ofJson?, ofWritten?, toJson, Written.record?_object (by simp)]
  exact congrArg (· >>= fun types => some (⟨types⟩ : Schema)) htypes

theorem settled_of_ofWritten? {w : Written} {s : Schema} (h : ofWritten? w = some s) :
    s.settled = s := by
  obtain ⟨members, -, h⟩ := Option.bind_eq_some_iff.mp h
  split at h
  · obtain ⟨types, htypes, h⟩ := Option.bind_eq_some_iff.mp h
    cases h
    have hall := Written.forall_of_required?_eq_some DocumentType.settled_of_ofWritten? htypes
    rw [settled, List.map_congr_left hall, List.map_id']
  · cases h

theorem inRange_toJson (s : Schema) : s.toJson.InRange := by
  have htypes : (Json.arr (s.types.map DocumentType.toJson)).InRange := .arr fun v hv => by
    obtain ⟨t, -, rfl⟩ := List.mem_map.mp hv
    exact t.inRange_toJson
  refine .object ?_
  simp [htypes]

/-- A schema that was read, whatever the order of its members, the members that nobody asks for and
the defaults left out, is read again from its own record and from the text of that record, with the
verdict on its structure; every field of it is read again, and no identifier of it is nullable. -/
theorem reads_own_record {w : Written} {s : Schema} (h : ofWritten? w = some s) :
    ofJson? s.toJson = some s ∧
      (∀ origin, ofText origin s.toJson.pretty = s.check.map fun _ => s) ∧
      ∀ t ∈ s.types, ∀ f ∈ t.fields, Field.ofWritten? f.toJson.written = some f ∧
        (f.identifier = true → f.nullable = false) := by
  have hsettled := settled_of_ofWritten? h
  have hread : ofWritten? s.toJson.written = some s := by
    rw [← ofJson?, ofJson?_toJson, hsettled]
  refine ⟨hread, fun origin => ?_, fun t ht f hf => ?_⟩
  · rw [ofText, s.inRange_toJson.ofText?_pretty, Option.bind_eq_bind, Option.bind_some, hread]
    dsimp only
    cases s.check <;> rfl
  · have htypes : s.types.map DocumentType.settled = s.types.map id := by
      rw [List.map_id]
      exact congrArg Schema.types hsettled
    have hfields : t.fields.map Field.settled = t.fields.map id := by
      rw [List.map_id]
      exact congrArg DocumentType.fields (List.map_inj_left.mp htypes t ht)
    have hfield : f.settled = f := List.map_inj_left.mp hfields f hf
    refine ⟨by rw [f.ofWritten?_toJson, hfield], fun hidentifier => ?_⟩
    rw [← hfield, Field.settled, hidentifier, Bool.not_true, Bool.and_false]

/-- Persons, with members in another order, one that nobody asks for, an identifier that is said to
be nullable, a scalar type name beside values, and a field as a list of its members. -/
theorem reads_own_record_persons :
    let text (s : String) : Written := .str (some s)
    let id : Written := .obj [(some "identifier", .bool true), (some "nullable", .bool true),
      (some "type", text "ID"), (some "name", text "id")]
    let state : Written := .obj [(some "name", text "estado"), (some "type", text "String"),
      (some "values", .arr [text "activo", text "baja"])]
    let chief : Written := .arr [text "jefe", text "Persona"]
    let person : Written := .obj [(some "plural", .null), (some "fields", .arr [id, state, chief]),
      (some "name", text "Persona"), (some "note", .str none)]
    ∃ s, ofWritten? (.obj [(some "types", .arr [person])]) = some s ∧
      s.types.flatMap (·.fields) = [⟨"id", .scalar .id, false, false, true, false⟩,
        ⟨"estado", .enumeration "String" ["activo", "baja"], true, false, false, false⟩,
        ⟨"jefe", .reference "Persona", true, false, false, false⟩] ∧
      ofJson? s.toJson = some s ∧ ofText "persons" s.toJson.pretty = .ok s := by
  intro text id state chief person
  have h : ofWritten? (.obj [(some "types", .arr [person])]) = some ⟨[⟨"Persona",
      [⟨"id", .scalar .id, false, false, true, false⟩,
        ⟨"estado", .enumeration "String" ["activo", "baja"], true, false, false, false⟩,
        ⟨"jefe", .reference "Persona", true, false, false, false⟩], none, none, {}⟩]⟩ := by
    rfl
  obtain ⟨hrecord, htext, -⟩ := reads_own_record h
  refine ⟨_, h, rfl, hrecord, ?_⟩
  rw [htext]
  cbv

end Schema

end DocumentEngine
