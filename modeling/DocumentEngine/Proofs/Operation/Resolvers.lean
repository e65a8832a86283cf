import DocumentEngine.Operation.Catalog
import DocumentEngine.Proofs.Keyed
import DocumentEngine.Proofs.State
import DocumentEngine.Schema.Structure
import Mathlib

/-!
The table of mutations. It has all operations of a schema exactly where no two of them share the name
of their mutation and no type with operations gives its name to a later one; what is lost else is
replaced by an operation that comes later in the order of type names.
-/

namespace DocumentEngine

namespace Keyed

variable {α β : Type}

/-- Collected entries are as many as they have different keys. -/
theorem length_ofList (entries : List (String × α)) :
    (ofList entries).length = (entries.map Prod.fst).dedup.length := by
  have hnodup : (ofList entries).keys.Nodup := (ascending_union .nil entries).nodup_keys
  rw [← List.length_map (f := Prod.fst)]
  refine List.Perm.length_eq ((List.perm_ext_iff_of_nodup hnodup (List.nodup_dedup _)).mpr ?_)
  intro key
  rw [List.mem_dedup]
  constructor
  · intro hkey
    obtain ⟨entry, hentry, rfl⟩ := List.mem_map.mp hkey
    exact List.mem_map_of_mem ((mem_union hentry).resolve_left List.not_mem_nil)
  · intro hkey
    obtain ⟨value, hvalue⟩ := Option.isSome_iff_exists.mp (isSome_get?_union [] (.inr hkey))
    exact List.mem_map_of_mem (mem_of_get? hvalue)

theorem length_ofList_le (entries : List (String × α)) :
    (ofList entries).length ≤ entries.length := by
  have hkeys : (entries.map Prod.fst).length = entries.length := List.length_map ..
  rw [length_ofList, ← hkeys]
  exact (List.dedup_sublist _).length_le

/-- No entry is replaced exactly where all keys are different. -/
theorem length_ofList_eq_iff {entries : List (String × α)} :
    (ofList entries).length = entries.length ↔ (entries.map Prod.fst).Nodup := by
  have hkeys : (entries.map Prod.fst).length = entries.length := List.length_map ..
  rw [length_ofList, ← hkeys, ← List.dedup_eq_self]
  exact ⟨(List.dedup_sublist _).eq_of_length, fun h => by rw [h]⟩

/-- What is made of a value that is put in stands beside what is made of the others, but what was
made of the value that it replaces is gone. -/
theorem flatMap_insert (f : String → List α → List β) (hf : ∀ key, f key [] = [])
    {m : Keyed (List α)} (h : m.Ascending) (key : String) (value : List α) :
    ((m.insert key value).flatMap (fun e => f e.1 e.2) ++ f key ((m.get? key).getD [])).Perm
      (m.flatMap (fun e => f e.1 e.2) ++ f key value) := by
  induction m with
  | nil => simp [Keyed.insert, get?, hf]
  | cons entry m ih =>
    obtain ⟨k, v⟩ := entry
    unfold Keyed.insert
    rw [get?_cons]
    by_cases hk : k = key
    · subst hk
      rw [if_pos rfl, if_pos rfl, List.flatMap_cons, List.flatMap_cons]
      simp only [Option.getD_some, List.append_assoc]
      exact List.perm_append_comm_assoc .. |>.trans (List.perm_append_comm.append_left _)
        |>.trans (List.perm_append_comm_assoc ..)
    · rw [if_neg hk, if_neg hk]
      by_cases hlt : key < k
      · have hnone : get? m key = none := by
          rw [get?_eq_none_iff]
          intro hkey
          obtain ⟨other, hother, rfl⟩ := List.mem_map.mp hkey
          exact lt_asymm hlt ((List.pairwise_cons.mp h).1 other hother)
        rw [if_pos hlt, hnone, Option.getD_none, hf, List.append_nil, List.flatMap_cons]
        exact List.perm_append_comm
      · rw [if_neg hlt, List.flatMap_cons, List.flatMap_cons, List.append_assoc, List.append_assoc]
        exact (ih (List.pairwise_cons.mp h).2).append_left _

end Keyed

/-- The mutations of a type under their names. -/
def DocumentType.mutationEntries (t : DocumentType) : List (String × MutationEntry) :=
  Catalog.entriesOf t.name (t.operations.toOption.getD [])

/-- The mutations of all types of a schema under their names. -/
def Schema.mutationEntries (s : Schema) : List (String × MutationEntry) :=
  s.types.flatMap DocumentType.mutationEntries

/-- All mutations of a schema have different names, and no type with operations has the name of a
later one. -/
structure Schema.MutationsApart (s : Schema) : Prop where
  names : (s.mutationEntries.map Prod.fst).Nodup
  types : s.types.Pairwise fun t u => t.name = u.name → t.operations = .ok []

/-- What the names of the mutations of a type begin with. -/
def DocumentType.mutationStem (t : DocumentType) : List Char := (Text.lowerFirst t.name).toList

/-- The names of types and operations by which all mutations of a schema are told apart: the name of
no type begins that of another, and no two operations of a type differ only in the case of their first
letters. -/
structure Schema.NamesApart (s : Schema) : Prop where
  types : s.types.Pairwise fun t u =>
    ¬t.mutationStem <+: u.mutationStem ∧ ¬u.mutationStem <+: t.mutationStem
  operations : ∀ t ∈ s.types, ∀ operations, t.operations = .ok operations →
    (operations.map fun op => Text.upperFirst op.name).Nodup

theorem DocumentType.name_of_mem_mutationEntries {t : DocumentType} {name : String}
    (h : name ∈ t.mutationEntries.map Prod.fst) : t.mutationStem <+: name.toList := by
  rw [mutationEntries, Catalog.entriesOf, List.map_map] at h
  obtain ⟨op, -, rfl⟩ := List.mem_map.mp h
  exact ⟨(Text.upperFirst op.name).toList, (String.toList_append ..).symm⟩

theorem Schema.NamesApart.mutationsApart {s : Schema} (h : s.NamesApart) : s.MutationsApart where
  names := by
    rw [mutationEntries, List.map_flatMap, List.nodup_flatMap]
    constructor
    · intro t ht
      rw [DocumentType.mutationEntries, Catalog.entriesOf, List.map_map]
      cases hoperations : t.operations with
      | error cause => exact List.nodup_nil
      | ok operations =>
        have hinjective : Function.Injective (Text.lowerFirst t.name ++ ·) := fun a b hab => by
          rw [← String.toList_inj] at hab ⊢
          simpa using hab
        have hnames := (h.operations t ht operations hoperations).map hinjective
        rw [List.map_map] at hnames
        exact hnames
    · refine h.types.imp fun {t u} hapart name ht hu => ?_
      have ht := DocumentType.name_of_mem_mutationEntries ht
      have hu := DocumentType.name_of_mem_mutationEntries hu
      exact (List.prefix_or_prefix_of_prefix ht hu).elim hapart.1 hapart.2
  types := h.types.imp fun {t u} hapart hname => by
    refine absurd ?_ hapart.1
    rw [DocumentType.mutationStem, hname]
    exact List.prefix_rfl

namespace Catalog

variable {space : String} {s : Schema} {c : Catalog} {types : List DocumentType}
  {before after : Keyed (List Operation)}

/-- The mutations of a catalog under their names, the types in the order of their names. -/
def entries (byType : Keyed (List Operation)) : List (String × MutationEntry) :=
  byType.flatMap fun e => entriesOf e.1 e.2

/-- What is lost when types are added are the mutations of types whose name a later one has. -/
theorem exists_lost (hbefore : before.Ascending) (h : addTypes before types = .ok after) :
    ∃ lost, (entries after ++ lost).Perm (entries before ++ types.flatMap (·.mutationEntries)) ∧
      (lost = [] ↔ (∀ t ∈ types, (before.get? t.name).getD [] = []) ∧
        types.Pairwise fun t u => t.name = u.name → t.operations = .ok []) := by
  induction types generalizing before with
  | nil =>
    cases h
    exact ⟨[], by simp, by simp⟩
  | cons t types ih =>
    obtain ⟨operations, hoperations, h⟩ := Except.exists_of_bind_eq_ok h
    obtain ⟨lost, hperm, hlost⟩ := ih (Keyed.ascending_insert hbefore t.name operations) h
    have hmutations : t.mutationEntries = entriesOf t.name operations := by
      rw [DocumentType.mutationEntries, hoperations]
      rfl
    have hinsert := Keyed.flatMap_insert entriesOf (fun _ => rfl) hbefore t.name operations
    refine ⟨lost ++ entriesOf t.name ((before.get? t.name).getD []), ?_, ?_⟩
    · rw [List.flatMap_cons, hmutations, ← List.append_assoc, ← List.append_assoc]
      refine (hperm.append_right _).trans ?_
      rw [List.append_assoc]
      refine (List.perm_append_comm.append_left _).trans ?_
      rw [← List.append_assoc]
      exact hinsert.append_right _
    · have hold : ∀ u : DocumentType, (((before.insert t.name operations).get? u.name).getD [] = [] ∧
          (before.get? t.name).getD [] = []) ↔
          ((before.get? u.name).getD [] = [] ∧ (t.name = u.name → operations = []) ∧
          (before.get? t.name).getD [] = []) := by
        intro u
        rw [Keyed.get?_insert]
        by_cases hname : t.name = u.name
        · rw [if_pos hname, ← hname]
          simp
        · rw [if_neg hname]
          simp [hname]
      rw [List.append_eq_nil_iff, hlost, entriesOf, List.map_eq_nil_iff, List.forall_mem_cons,
        List.pairwise_cons, hoperations]
      simp only [Except.ok.injEq]
      constructor
      · rintro ⟨⟨hrest, hpairs⟩, hnone⟩
        exact ⟨⟨hnone, fun u hu => ((hold u).mp ⟨hrest u hu, hnone⟩).1⟩,
          fun u hu => ((hold u).mp ⟨hrest u hu, hnone⟩).2.1, hpairs⟩
      · rintro ⟨⟨hnone, hrest⟩, hfirst, hpairs⟩
        exact ⟨⟨fun u hu => ((hold u).mpr ⟨hrest u hu, hfirst u hu, hnone⟩).1, hpairs⟩, hnone⟩

/-- The operations of every type are known where a catalog is made. -/
theorem exists_operations (h : addTypes before types = .ok after) :
    ∀ t ∈ types, ∃ operations, t.operations = .ok operations := by
  induction types generalizing before with
  | nil => simp
  | cons t types ih =>
    obtain ⟨operations, hoperations, h⟩ := Except.exists_of_bind_eq_ok h
    exact List.forall_mem_cons.mpr ⟨⟨operations, hoperations⟩, ih h⟩

theorem resolvers_ofSchema (h : ofSchema space s = .ok c) :
    ∃ byType, addTypes [] s.types = .ok byType ∧ c.resolvers space = Keyed.ofList (entries byType) := by
  obtain ⟨byType, hbyType, h⟩ := Except.exists_of_bind_eq_ok h
  cases h
  exact ⟨byType, hbyType, if_pos rfl⟩

/-- The table of mutations has all of a schema, and as many entries as these are, exactly where they
have different names and no type with operations has the name of a later one; so it has where the name
of no type begins that of another, and no two operations of a type differ only in the case of their
first letters. It has nothing but mutations of the schema under their names. -/
theorem resolvers_complete_iff (h : ofSchema space s = .ok c) :
    (((∀ t ∈ s.types, ∃ operations, t.operations = .ok operations ∧ ∀ op ∈ operations,
        (c.resolvers space).get? (op.resolverName (Text.lowerFirst t.name)) = some ⟨t.name, op⟩) ∧
      (c.resolvers space).length = s.mutationEntries.length) ↔ s.MutationsApart) ∧
    (s.NamesApart → s.MutationsApart) ∧
    ∀ name entry, (c.resolvers space).get? name = some entry → (name, entry) ∈ s.mutationEntries := by
  obtain ⟨byType, hbyType, hresolvers⟩ := resolvers_ofSchema h
  obtain ⟨lost, hperm, hlost⟩ := exists_lost .nil hbyType
  have hkept : (entries byType ++ lost).Perm s.mutationEntries := hperm
  rw [hresolvers]
  refine ⟨⟨fun ⟨_, hlength⟩ => ?_, fun hapart => ?_⟩, Schema.NamesApart.mutationsApart, ?_⟩
  · have htable := Keyed.length_ofList_le (entries byType)
    have hall := hkept.length_eq
    rw [List.length_append] at hall
    have hnil : lost = [] := List.length_eq_zero_iff.mp (by omega)
    rw [hnil, List.append_nil] at hkept
    refine ⟨(hkept.map Prod.fst).nodup_iff.mp (Keyed.length_ofList_eq_iff.mp (by omega)), ?_⟩
    exact (hlost.mp hnil).2
  · rw [hlost.mpr ⟨fun t _ => rfl, hapart.types⟩, List.append_nil] at hkept
    have hnames := (hkept.map Prod.fst).nodup_iff.mpr hapart.names
    refine ⟨fun t ht => ?_, (Keyed.length_ofList_eq_iff.mpr hnames).trans hkept.length_eq⟩
    obtain ⟨operations, hoperations⟩ := exists_operations hbyType t ht
    refine ⟨operations, hoperations, fun op hop => Keyed.get?_union_of_mem [] hnames ?_⟩
    refine hkept.mem_iff.mpr (List.mem_flatMap.mpr ⟨t, ht, ?_⟩)
    rw [DocumentType.mutationEntries, hoperations]
    exact List.mem_map_of_mem hop
  · intro name entry hentry
    exact hkept.mem_iff.mp (List.mem_append_left _ (Keyed.mem_of_get?_ofList hentry))

section

/-- Orders. -/
private def order : DocumentType :=
  { name := "Order", fields := [.ofIdentifier "id", .ofScalar "total" .int] }

/-- Orders that have an operation for their lines. -/
private def lineOrder : DocumentType :=
  { order with mutations := { operations := ["lineCreate: assign = [total]"] } }

/-- The lines of orders. -/
private def orderLine : DocumentType := { name := "OrderLine", fields := [.ofIdentifier "id"] }

/-- Invoices. -/
private def invoice : DocumentType :=
  { name := "Invoice", fields := [.ofIdentifier "id", .ofScalar "paid" .boolean]
    mutations := { operations := ["settle: assign = [paid]"] } }

/-- Employees, who are promoted in two ways. -/
private def employee : DocumentType :=
  { name := "Empleado", fields := [.ofIdentifier "id", .ofScalar "cargo" .string]
    mutations := { operations := ["promote: assign = [cargo]", "Promote: context = delete"] } }

/-- What can be done to documents, where creations and updates assign some fields. -/
private def common (assign : List String) (declared : List Operation) : List Operation :=
  [.ofImplicit "create" .create assign, .ofImplicit "update" .modify assign,
    .ofImplicit "delete" .delete []] ++ declared

private def settle : Operation := ⟨"settle", .modify, ["paid"], [], false⟩

private def lineCreate : Operation := ⟨"lineCreate", .modify, ["total"], [], false⟩

private def promote : Operation := ⟨"promote", .modify, ["cargo"], [], false⟩

private def dismiss : Operation := ⟨"Promote", .delete, [], [], false⟩

private theorem operations_order : order.operations = .ok (common ["total"] []) := by
  cbv

private theorem operations_invoice : invoice.operations = .ok (common [] [settle]) := by
  cbv

private theorem operations_employee : employee.operations = .ok (common [] [promote, dismiss]) := by
  cbv

private theorem operations_lineOrder : lineOrder.operations = .ok (common [] [lineCreate]) := by
  cbv

/-- Neither of the names of orders and invoices begins the other. -/
private theorem namesApart_orders : Schema.NamesApart ⟨[order, invoice]⟩ where
  types := by
    have horder : order.mutationStem = ['o', 'r', 'd', 'e', 'r'] := by cbv
    have hinvoice : invoice.mutationStem = ['i', 'n', 'v', 'o', 'i', 'c', 'e'] := by cbv
    simp [horder, hinvoice]
  operations := by
    simp only [List.forall_mem_cons, operations_order, operations_invoice, Except.ok.injEq,
      forall_eq', List.not_mem_nil, false_imp_iff, implies_true, and_true]
    constructor
    · have hnames : ((common ["total"] []).map fun op => Text.upperFirst op.name) =
        ["Create", "Update", "Delete"] := by cbv
      rw [hnames]
      decide
    · have hnames : ((common [] [settle]).map fun op => Text.upperFirst op.name) =
        ["Create", "Update", "Delete", "Settle"] := by cbv
      rw [hnames]
      decide

/-- Of orders and invoices no mutation is lost. -/
theorem resolvers_complete_iff_orders :
    ∃ c, ofSchema "default" ⟨[order, invoice]⟩ = .ok c ∧
      (∀ t ∈ [order, invoice], ∃ operations, t.operations = .ok operations ∧ ∀ op ∈ operations,
        (c.resolvers "default").get? (op.resolverName (Text.lowerFirst t.name)) =
          some ⟨t.name, op⟩) ∧
      (c.resolvers "default").length = (Schema.mutationEntries ⟨[order, invoice]⟩).length := by
  have h : ofSchema "default" ⟨[order, invoice]⟩ =
      .ok ⟨"default", [("Invoice", common [] [settle]), ("Order", common ["total"] [])]⟩ := by cbv
  have hcomplete := resolvers_complete_iff h
  exact ⟨_, h, hcomplete.1.mpr (hcomplete.2.1 namesApart_orders)⟩

/-- The mutation `empleadoPromote` dismisses employees, and `orderLineCreate` makes lines. -/
private theorem resolvers_lost :
    (Catalog.resolvers ⟨"default", [("Empleado", common [] [promote, dismiss])]⟩ "default").get?
        (promote.resolverName (Text.lowerFirst "Empleado")) = some ⟨"Empleado", dismiss⟩ ∧
    (Catalog.resolvers ⟨"default", [("Order", common [] [lineCreate]),
        ("OrderLine", common [] [])]⟩ "default").get?
        (lineCreate.resolverName (Text.lowerFirst "Order")) =
      some ⟨"OrderLine", .ofImplicit "create" .create []⟩ := by
  have hemployee : entries [("Empleado", common [] [promote, dismiss])] =
      [("empleadoCreate", ⟨"Empleado", .ofImplicit "create" .create []⟩),
        ("empleadoUpdate", ⟨"Empleado", .ofImplicit "update" .modify []⟩),
        ("empleadoDelete", ⟨"Empleado", .ofImplicit "delete" .delete []⟩),
        ("empleadoPromote", ⟨"Empleado", promote⟩), ("empleadoPromote", ⟨"Empleado", dismiss⟩)] := by
    cbv
  have horder : entries [("Order", common [] [lineCreate]), ("OrderLine", common [] [])] =
      [("orderCreate", ⟨"Order", .ofImplicit "create" .create []⟩),
        ("orderUpdate", ⟨"Order", .ofImplicit "update" .modify []⟩),
        ("orderDelete", ⟨"Order", .ofImplicit "delete" .delete []⟩),
        ("orderLineCreate", ⟨"Order", lineCreate⟩),
        ("orderLineCreate", ⟨"OrderLine", .ofImplicit "create" .create []⟩),
        ("orderLineUpdate", ⟨"OrderLine", .ofImplicit "update" .modify []⟩),
        ("orderLineDelete", ⟨"OrderLine", .ofImplicit "delete" .delete []⟩)] := by
    cbv
  have hpromote : promote.resolverName (Text.lowerFirst "Empleado") = "empleadoPromote" := by cbv
  have hcreate : lineCreate.resolverName (Text.lowerFirst "Order") = "orderLineCreate" := by cbv
  rw [hpromote, hcreate]
  constructor
  · change (Keyed.ofList (entries _)).get? _ = _
    rw [hemployee]
    cbv
  · change (Keyed.ofList (entries _)).get? _ = _
    rw [horder]
    cbv

/-- A schema that is not refused, though an operation of it cannot be reached under its name. -/
def Loses (s : Schema) : Prop :=
  s.check = .ok () ∧ ∃ c, ofSchema "default" s = .ok c ∧ ∃ t ∈ s.types, ∃ operations,
    t.operations = .ok operations ∧ ∃ op ∈ operations, ∃ entry,
      (c.resolvers "default").get? (op.resolverName (Text.lowerFirst t.name)) = some entry ∧
      entry.operation ≠ op

/-- A mutation is lost to one of its own type whose name begins with the other case, and one to a type
whose name continues its own with the name of the operation. -/
theorem exists_operation_lost : Loses ⟨[employee]⟩ ∧ Loses ⟨[lineOrder, orderLine]⟩ := by
  constructor
  · have hcheck : (⟨[employee]⟩ : Schema).check = .ok () := by cbv
    have h : ofSchema "default" ⟨[employee]⟩ =
        .ok ⟨"default", [("Empleado", common [] [promote, dismiss])]⟩ := by cbv
    exact ⟨hcheck, _, h, employee, List.mem_singleton.mpr rfl, _, operations_employee, promote,
      by simp [common], _, resolvers_lost.1,
      fun hsame => absurd (congrArg Operation.context hsame) (by decide)⟩
  · have hcheck : (⟨[lineOrder, orderLine]⟩ : Schema).check = .ok () := by cbv
    have h : ofSchema "default" ⟨[lineOrder, orderLine]⟩ =
        .ok ⟨"default", [("Order", common [] [lineCreate]), ("OrderLine", common [] [])]⟩ := by cbv
    exact ⟨hcheck, _, h, lineOrder, List.mem_cons_self, _, operations_lineOrder, lineCreate,
      by simp [common], _, resolvers_lost.2,
      fun hsame => absurd (congrArg Operation.context hsame) (by decide)⟩

end

end Catalog

end DocumentEngine
