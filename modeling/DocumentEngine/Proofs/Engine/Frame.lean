import DocumentEngine.Proofs.Engine.Valid
import DocumentEngine.Proofs.Operation.Values

/-!
What a mutation leaves alone. A document that is written differs from the document under it only
under the names that its operation may write, and under the keys of the references that they name. An
implicit operation so leaves a field alone that a declared one claims, unless the field shares a key
with another one that the implicit operation writes.
-/

namespace DocumentEngine

open Action Mutation

/-- The names that an operation may write: that of the identifier, those of the values that it sets,
and those of the fields that it assigns. -/
def Operation.writableNames (op : Operation) (t : DocumentType) : List String :=
  t.identifierName :: (op.set.keys ++ op.assign)

namespace Mutation

variable {t : DocumentType} {op : Operation} {input existing : Document} {key name : String}

/-- An operation takes a key of its input under the identifier or under a field that it assigns. -/
theorem assigns_of_checkAssignable (h : checkAssignable t op input = .ok ()) (hkey : key ∈ input.keys) :
    key = t.identifierName ∨ assignedName t key ∈ op.assign := by
  unfold checkAssignable at h
  dsimp only at h
  split at h
  · rename_i hnone
    have hkept := List.filter_eq_nil_iff.mp (List.isEmpty_iff.mp hnone) key hkey
    by_contra hneither
    rw [not_or] at hneither
    exact hkept (by simp [hneither.1, Operation.assigns, hneither.2])
  · cases h

/-- A key of the input is merged into the keys of the name under which it is taken. -/
theorem writtenKeys_assignedName (t : DocumentType) (key : String) :
    writtenKeys t (assignedName t key) = writtenKeys t key := by
  unfold assignedName
  cases href : referenceField? t key with
  | none => rfl
  | some f =>
    obtain ⟨htarget, hf, -⟩ := name_of_referenceField? href
    rw [writtenKeys_of_reference href, writtenKeys_of_reference (referenceField?_name hf htarget)]

/-- Merging an input that an operation takes, with the values of the operation, changes only what
the operation may write. -/
theorem writable_of_merge_ne (hassign : checkAssignable t op input = .ok ()) {related : Keyed Json}
    (h : (merge t related existing (input.union op.set)).get? key ≠ existing.get? key) :
    ∃ name ∈ op.writableNames t, key ∈ writtenKeys t name := by
  by_contra hnone
  refine h (get?_merge_of_notMem existing fun entry hentry hwritten => hnone ?_)
  unfold Operation.writableNames
  rcases Keyed.mem_union hentry with hentry | hentry
  · rcases assigns_of_checkAssignable hassign (List.mem_map_of_mem hentry) with hidentifier | hassigned
    · exact ⟨_, List.mem_cons_self, hidentifier ▸ hwritten⟩
    · refine ⟨_, List.mem_cons_of_mem _ (List.mem_append_right _ hassigned), ?_⟩
      rwa [writtenKeys_assignedName]
  · exact ⟨_, List.mem_cons_of_mem _ (List.mem_append_left _ (List.mem_map_of_mem hentry)), hwritten⟩

end Mutation

namespace DocumentType

variable {t : DocumentType} {operations : List Operation} {op other : Operation} {name : String}

theorem isSome_field?_of_assign (h : t.operations = .ok operations) (hop : op ∈ operations)
    (hname : name ∈ op.assign) : (t.field? name).isSome = true := by
  rcases mem_operations h hop with hdeclares | himplies
  · exact hdeclares.assigned name hname
  · exact (himplies.assigned name hname).2

/-- The names that an implicit operation may write are those of fields, and the identifier apart no
declared operation claims them. -/
theorem writable_of_implicit (h : t.operations = .ok operations) (hop : op ∈ operations)
    (himplicit : op.implicit = true) (hname : name ∈ op.writableNames t) :
    (t.field? name).isSome = true ∧ (name ≠ t.identifierName →
      ∀ other ∈ operations, other.implicit = false → name ∉ other.assign) := by
  rcases mem_operations h hop with hdeclares | himplies
  · rw [hdeclares.explicit] at himplicit
    cases himplicit
  · rw [Operation.writableNames, himplies.set] at hname
    rcases List.mem_cons.mp hname with rfl | hname
    · exact ⟨isSome_field?_identifierName h, fun hne => absurd rfl hne⟩
    · exact ⟨(himplies.assigned name hname).2, fun _ => himplies.unclaimed name hname⟩

end DocumentType

namespace Engine

variable {e : Engine} {requestId : String} {t : DocumentType} {op : Operation} {state : State}

/-- A document that is given an identifier changes only there, and only if it had none. -/
theorem get?_of_identified {doc stored : Document} {id key : String} {after : State}
    (h : exec (identified t doc) state = (.ok (id, stored), after))
    (hkey : key = t.identifierName → (idOf? t doc).isSome = true) :
    stored.get? key = doc.get? key := by
  by_cases hown : key = t.identifierName
  · obtain ⟨own, hid⟩ := Option.isSome_iff_exists.mp (hkey hown)
    unfold identified at h
    rw [hid] at h
    cases h
    rfl
  · rcases (exec_identified h).2 with rfl | rfl
    · rfl
    · exact Keyed.get?_insert_of_ne doc _ (Ne.symm hown)

/-- A creation or a modification that succeeds, without handlers and with input that is not cleaned,
stores a document that differs from the one under it only where the operation may write. What a
declared operation claims so changes in an implicit one only under a key that another field shares,
and not at all where no field bears the name of a pointer. -/
theorem write_changes_writable (e : Engine) (requestId : String) (t : DocumentType) (op : Operation)
    (state : State) (hclean : ∀ doc, e.collaborators.sanitize e.space t.name doc = doc)
    (hhooks : e.hooks.chain e.space t.name op.hookSuffixes = []) {arguments result : Document}
    {after : State} (h : exec (e.write requestId t op arguments) state = (.ok result, after)) :
    ∃ (input existing stored : Document) (id : String) (before : State),
      inputOf arguments = .ok input ∧ (op.context = .create → existing = []) ∧
      (op.context ≠ .create → ∃ looked,
        exec (e.findExisting requestId t input) state = (.ok existing, looked)) ∧
      exec (e.change t op id stored) before = (.ok (), after) ∧
      result = e.collaborators.redact e.space t.name stored ∧
      (∀ key, stored.get? key ≠ existing.get? key →
        ∃ name ∈ op.writableNames t, key ∈ writtenKeys t name) ∧
      ∀ operations, t.operations = .ok operations → op ∈ operations → op.implicit = true →
        ∀ other ∈ operations, other.implicit = false →
          ∀ claimed ∈ other.assign, claimed ≠ t.identifierName → ∀ key ∈ writtenKeys t claimed,
            (stored.get? key ≠ existing.get? key →
              ∃ name ∈ op.writableNames t, name ≠ claimed ∧ key ∈ writtenKeys t name) ∧
            (t.PointersApart → stored.get? key = existing.get? key) := by
  obtain ⟨doc, prepared, id, stored, named, hprepare, hidentified, hchange, hresult⟩ :=
    written_of_exec hhooks h
  obtain ⟨input, existing, related, looked, allowed, checked, hinput, hassign, hnew, hold, -, -, -,
    rfl, -⟩ := prepared_of_exec hprepare
  have hcleaned : e.cleaned t input = input := hclean input
  rw [hcleaned] at hold
  have hframe : ∀ key, stored.get? key ≠ existing.get? key →
      ∃ name ∈ op.writableNames t, key ∈ writtenKeys t name := by
    intro key hchanged
    by_cases hkey : key = t.identifierName
    · exact ⟨_, List.mem_cons_self, hkey ▸ mem_writtenKeys_self t key⟩
    · rw [get?_of_identified hidentified fun hown => absurd hown hkey, mergedOver, hcleaned] at hchanged
      exact writable_of_merge_ne hassign hchanged
  refine ⟨input, existing, stored, id, named, hinput, fun hcreate => (hnew hcreate).1,
    fun hmodify => ⟨looked, hold hmodify⟩, hchange, hresult, hframe, ?_⟩
  intro operations hoperations hop himplicit other hother hdeclared claimed hclaimed hown key hkey
  have hshared : stored.get? key ≠ existing.get? key →
      ∃ name ∈ op.writableNames t, name ≠ claimed ∧ key ∈ writtenKeys t name := by
    intro hchanged
    obtain ⟨name, hname, hwritten⟩ := hframe key hchanged
    refine ⟨name, hname, ?_, hwritten⟩
    rintro rfl
    exact (DocumentType.writable_of_implicit hoperations hop himplicit hname).2 hown other hother
      hdeclared hclaimed
  refine ⟨hshared, fun hapart => ?_⟩
  by_contra hchanged
  obtain ⟨name, hname, hne, hwritten⟩ := hshared hchanged
  exact hne (eq_of_mem_writtenKeys hapart
    (DocumentType.writable_of_implicit hoperations hop himplicit hname).1
    (DocumentType.isSome_field?_of_assign hoperations hother hclaimed) hwritten hkey)

section

/-- Employees of provinces. Only a promotion takes their post and a note that has the name of the
pointer to the province. -/
private def promoted : DocumentType where
  name := "Empleado"
  fields := [.ofIdentifier "id", .ofScalar "cargo" .string, .ofReference "provincia" "Provincia",
    .ofScalar "provincia_id" .string]
  mutations := { operations := ["promote: assign = [cargo, provincia_id]"] }

private def promotions : Schema where
  types := [promoted, { name := "Provincia", fields := [.ofIdentifier "id"] }]

private def promoter : Engine := bare ⟨"/data"⟩ promotions ⟨"default", []⟩

private def payroll : State where
  files := ⟨[(["data"], .directory), (["data", "Empleado"], .directory),
    (["data", "Empleado", "e1"], .file (some
      "\x7b\"id\": \"e1\", \"cargo\": \"cabo\", \"provincia_id\": \"secret\"\x7d")),
    (["data", "Provincia"], .directory),
    (["data", "Provincia", "p1"], .file (some "\x7b\"id\": \"p1\"\x7d"))]⟩

/-- The update of an employee as the type has it, and the province that one is moved to. -/
private def moving : Operation := .ofImplicit "update" .modify ["provincia"]

private def move : Document := [("id", .str "e1"), ("provincia", .str "p1")]

private theorem promoted_operations : promoted.operations = .ok
    [.ofImplicit "create" .create ["provincia"], moving, .ofImplicit "delete" .delete [],
      ⟨"promote", .modify, ["cargo", "provincia_id"], [], false⟩] := by rfl

private theorem compile_move : Query.compile promoter.schema promoted promoter.config.maxLimit
    [("id", .str "e1")] = .ok { filter := some (.equals "id" (.str "e1")) } :=
  (Query.compile_asksById (Query.asksById_of_isWord (f := .ofIdentifier "id") (by decide)
    (by decide) (by decide) (by decide) (by decide)) promoter.config.maxLimit (.str "e1")).1 _
      (Filter.idTarget?_str (by decide) (by decide))

private theorem exec_move :
    (∃ looked, exec (promoter.findExisting "r" promoted move) payroll = (.ok
      [("cargo", .str "cabo"), ("id", .str "e1"), ("provincia_id", .str "secret")], looked)) ∧
    ∃ after, exec (promoter.write "r" promoted moving move) payroll = (.ok
      [("cargo", .str "cabo"), ("id", .str "e1"), ("provincia_id", .str "p1")], after) := by
  have hfind : promoter.findExisting "r" promoted move =
      promoter.requireDocument "r" promoted (.str "e1") := rfl
  have hwrite : promoter.write "r" promoted moving move =
      (some <$> promoter.requireDocument "r" promoted (.str "e1") >>= _) >>= _ := rfl
  rw [hfind, hwrite]
  unfold requireDocument lookup
  rw [compile_move]
  exact (And.imp exists_exec_eq_ok exists_exec_eq_ok) (by decide +kernel)

theorem write_changes_writable_move :
    ∃ existing stored looked after,
      exec (promoter.findExisting "r" promoted move) payroll = (.ok existing, looked) ∧
      exec (promoter.write "r" promoted moving move) payroll = (.ok stored, after) ∧
      stored.get? "cargo" = existing.get? "cargo" := by
  obtain ⟨-, after, hrun⟩ := exec_move
  obtain ⟨input, existing, stored, id, before, hinput, -, hold, -, hresult, hframe, -⟩ :=
    write_changes_writable promoter "r" promoted moving payroll (fun _ => rfl) rfl hrun
  cases hinput
  obtain ⟨looked, hfound⟩ := hold (by decide)
  refine ⟨existing, _, looked, after, hfound, hrun.trans (by rw [hresult]), ?_⟩
  have hnone : ∀ name ∈ moving.writableNames promoted, "cargo" ∉ writtenKeys promoted name := by
    decide
  by_contra hchanged
  obtain ⟨name, hname, hkey⟩ := hframe "cargo" hchanged
  exact hnone name hname hkey

/-- An implicit update changes a field that a declared operation claims, where the field has the name
of the pointer of a reference that the update assigns. -/
theorem exists_claimed_field_changed :
    ∃ (e : Engine) (t : DocumentType) (operations : List Operation) (op other : Operation)
      (arguments existing stored : Document) (claimed : String) (state looked after : State),
      e.Bare ∧ e.schema.check = .ok () ∧ t ∈ e.schema.types ∧ t.operations = .ok operations ∧
      op ∈ operations ∧ op.implicit = true ∧ op.context = .modify ∧ other ∈ operations ∧
      other.implicit = false ∧ claimed ∈ other.assign ∧ claimed ≠ t.identifierName ∧
      exec (e.findExisting "r" t arguments) state = (.ok existing, looked) ∧
      exec (e.write "r" t op arguments) state = (.ok stored, after) ∧
      stored.get? claimed ≠ existing.get? claimed := by
  obtain ⟨⟨looked, hfound⟩, after, hrun⟩ := exec_move
  exact ⟨promoter, promoted, _, moving, ⟨"promote", .modify, ["cargo", "provincia_id"], [], false⟩,
    move, _, _, "provincia_id", payroll, looked, after, bare_bare _ _ _, by rfl,
    List.mem_cons_self, promoted_operations, by decide, rfl, rfl, by decide, rfl, by decide,
    by decide, hfound, hrun, by decide⟩

end

end Engine

end DocumentEngine
