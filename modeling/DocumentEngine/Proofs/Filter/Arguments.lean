import DocumentEngine.Proofs.Evaluation.Verdict
import DocumentEngine.Proofs.Filter.Identifier
import DocumentEngine.Proofs.State
import DocumentEngine.Schema.Structure

/-!
What a query keeps of the arguments that it was compiled from. The conditions of arguments are
collected under filter keys, and the entries of a cursor under paths, so of two that meet under one
key or path the last one counts and the other is dropped; all others are kept, and so are the order
and the limit.
-/

namespace DocumentEngine

/-- The filter key under which the condition of an argument is collected. -/
def DocumentType.filterKey (t : DocumentType) (name : String) : String :=
  if name = "id" then t.identifierName ++ "Equals" else name

namespace Filter

theorem truth_all (holds : Condition → Bool) (fs : List Filter) :
    (all fs).truth holds = fs.all (truth holds) := by
  rcases fs with _ | ⟨f, _ | ⟨g, fs⟩⟩
  · rfl
  · rw [all, List.all_cons, List.all_nil, Bool.and_true]
  · change truth holds (.and (f :: g :: fs)) = _
    rw [truth, truthAll_eq]

/-- The filter of all keys is true where the filter of each key is. -/
theorem truth_compileAll {s : Schema} {t : DocumentType} {filters : Keyed Json} {f : Option Filter}
    (h : compileAll s t filters = .ok f) (holds : Condition → Bool) :
    f.all (truth holds) = true ↔ ∀ entry ∈ filters,
      ∃ g, compileKey s t entry.1 entry.2 = .ok g ∧ g.truth holds = true := by
  obtain ⟨children, hchildren, hf⟩ := Except.exists_of_bind_eq_ok h
  have hall : f.all (truth holds) = children.all (truth holds) := by
    cases hf
    cases children with
    | nil => rfl
    | cons child children =>
      change (all (child :: children)).truth holds = _
      rw [truth_all]
  rw [hall, List.all_eq_true]
  have hresults := Except.forall₂_of_mapM_eq_ok hchildren
  clear hchildren hf hall h
  induction hresults with
  | nil => simp
  | @cons entry child filters children hchild _ ih =>
    refine List.forall_mem_cons.trans ((and_congr ⟨fun htrue => ⟨child, hchild, htrue⟩, ?_⟩ ih).trans
      List.forall_mem_cons.symm)
    rintro ⟨g, hg, htrue⟩
    cases hchild.symm.trans hg
    exact htrue

/-- The key of the `id` argument stands for equality of the identifier where it is read back so. -/
theorem compileKey_asksById {s : Schema} {t : DocumentType} (h : t.AsksById s) {raw : Json}
    {f : Filter} : compileKey s t (t.filterKey "id") raw = .ok f ↔
      ∃ w, idTarget? raw = some w ∧ f = .equals t.identifierName w := by
  have hkey : t.filterKey "id" = t.identifierName ++ "Equals" := if_pos rfl
  obtain ⟨hone, hmany⟩ := Query.compile_asksById h 0 raw
  rw [Query.compile_id, ← hkey] at hone hmany
  cases hf : compileKey s t (t.filterKey "id") raw with
  | error cause =>
    rw [hf] at hone
    refine iff_of_false (fun hok => by cases hok) ?_
    rintro ⟨w, hw, -⟩
    cases hone w hw
  | ok g =>
    rw [hf] at hone hmany
    cases hw : idTarget? raw with
    | none =>
      obtain ⟨cause, hcause⟩ := hmany hw
      cases hcause
    | some w =>
      have hfilter := hone w hw
      cases hfilter
      constructor
      · intro hok
        cases hok
        exact ⟨w, rfl, rfl⟩
      · rintro ⟨w', hsame, rfl⟩
        cases hsame
        rfl

end Filter

namespace Query

open Filter (resolveField compileKey compileAll idTarget?)
open Keyed (Latest)

/-- Whether an argument asks for a condition, and not for an order, a cursor or a limit. -/
def isCondition (name : String) : Bool :=
  name != "orderBy" && name != "since" && name != "limit"

/-- The truth value of the filter and the cursor of a query when conditions have given truth
values. -/
def truth (holds : Condition → Bool) (q : Query) : Bool :=
  q.filter.all (Filter.truth holds) &&
    q.since.all fun entry => holds ⟨entry.1, .gt, .single entry.2⟩

/-- The limit that an argument asks for. -/
def requested? : Json → Option Nat
  | .num n => n.toUnsigned?
  | .str text => Number.unsigned? (Text.trimChars text.toList)
  | _ => none

/-- What is read of an argument that may be left out. -/
def Gives {α : Type} (read : Json → Except FilterError α) (absent : α) (raw : Option Json) (a : α) :
    Prop :=
  match raw with
  | none => a = absent
  | some raw => read raw = .ok a

section

variable {α : Type} {read : Json → Except FilterError α} {absent a : α} {key name : String}
  {args : Keyed Json} {raw : Json}

theorem Gives.cons_of_ne (h : Gives read absent (args.get? key) a) (hne : name ≠ key) :
    Gives read absent (Keyed.get? ((name, raw) :: args) key) a := by
  rw [Keyed.get?_cons, if_neg hne]
  exact h

theorem Gives.cons_self {read' : Json → Except FilterError α} {b : α}
    (h : Gives read' b (args.get? key) a) (hnotin : key ∉ args.keys) (hread : read raw = .ok b) :
    Gives read absent (Keyed.get? ((key, raw) :: args) key) a := by
  rw [Keyed.get?_eq_none_iff.mpr hnotin] at h
  rw [Keyed.get?_cons, if_pos rfl]
  exact hread.trans (congrArg Except.ok h.symm)

end

variable {s : Schema} {t : DocumentType} {maxLimit : Nat}

/-- Arguments as they are read into a query and filter keys. -/
structure Reads (s : Schema) (t : DocumentType) (maxLimit : Nat) (query : Query)
    (filters args : Keyed Json) (q : Query) (left : Keyed Json) : Prop where
  filters : left = filters.union ((args.filter fun arg => isCondition arg.1).map fun arg =>
    (t.filterKey arg.1, arg.2))
  sort : Gives (sortRules s t) query.sort (args.get? "orderBy") q.sort
  since : Gives (cursor s t query.since) query.since (args.get? "since") q.since
  limit : Gives (limitOf maxLimit) query.limit (args.get? "limit") q.limit

namespace Reads

variable {query q : Query} {filters args left : Keyed Json} {name : String} {raw : Json}

theorem condition (h : Reads s t maxLimit query (filters.insert (t.filterKey name) raw) args q left)
    (hname : isCondition name = true) :
    Reads s t maxLimit query filters ((name, raw) :: args) q left where
  filters := by
    rw [List.filter_cons_of_pos (p := fun arg : String × Json => isCondition arg.1) hname,
      List.map_cons, Keyed.union_cons]
    exact h.filters
  sort := h.sort.cons_of_ne fun heq => by subst heq; cases hname
  since := h.since.cons_of_ne fun heq => by subst heq; cases hname
  limit := h.limit.cons_of_ne fun heq => by subst heq; cases hname

theorem orderBy {rules : List SortRule}
    (h : Reads s t maxLimit { query with sort := rules } filters args q left)
    (hnotin : "orderBy" ∉ args.keys) (hrules : sortRules s t raw = .ok rules) :
    Reads s t maxLimit query filters (("orderBy", raw) :: args) q left where
  filters := h.filters
  sort := h.sort.cons_self hnotin hrules
  since := h.since.cons_of_ne (by decide)
  limit := h.limit.cons_of_ne (by decide)

theorem cursorOf {entries : Keyed Json}
    (h : Reads s t maxLimit { query with since := entries } filters args q left)
    (hnotin : "since" ∉ args.keys) (hentries : cursor s t query.since raw = .ok entries) :
    Reads s t maxLimit query filters (("since", raw) :: args) q left where
  filters := h.filters
  sort := h.sort.cons_of_ne (by decide)
  since := h.since.cons_self hnotin hentries
  limit := h.limit.cons_of_ne (by decide)

theorem most {limit : Option Nat}
    (h : Reads s t maxLimit { query with limit := limit } filters args q left)
    (hnotin : "limit" ∉ args.keys) (hlimit : limitOf maxLimit raw = .ok limit) :
    Reads s t maxLimit query filters (("limit", raw) :: args) q left where
  filters := h.filters
  sort := h.sort.cons_of_ne (by decide)
  since := h.since.cons_of_ne (by decide)
  limit := h.limit.cons_self hnotin hlimit

end Reads

theorem reads_of_readArguments {query q : Query} {filters args left : Keyed Json}
    (hnames : args.keys.Nodup)
    (h : readArguments s t maxLimit query filters args = .ok (q, left)) :
    Reads s t maxLimit query filters args q left := by
  induction args generalizing query filters with
  | nil =>
    cases h
    exact ⟨rfl, rfl, rfl, rfl⟩
  | cons arg args ih =>
    obtain ⟨name, raw⟩ := arg
    obtain ⟨hnotin, hrest⟩ := List.nodup_cons.mp hnames
    rw [readArguments] at h
    by_cases hid : name = "id"
    · subst hid
      rw [if_pos rfl] at h
      exact (ih hrest h).condition (by decide)
    rw [if_neg hid] at h
    by_cases horder : name = "orderBy"
    · subst horder
      rw [if_pos rfl] at h
      obtain ⟨rules, hrules, h⟩ := Except.exists_of_bind_eq_ok h
      exact (ih hrest h).orderBy hnotin hrules
    rw [if_neg horder] at h
    by_cases hsince : name = "since"
    · subst hsince
      rw [if_pos rfl] at h
      obtain ⟨entries, hentries, h⟩ := Except.exists_of_bind_eq_ok h
      exact (ih hrest h).cursorOf hnotin hentries
    rw [if_neg hsince] at h
    by_cases hlimit : name = "limit"
    · subst hlimit
      rw [if_pos rfl] at h
      obtain ⟨limit, hread, h⟩ := Except.exists_of_bind_eq_ok h
      exact (ih hrest h).most hnotin hread
    rw [if_neg hlimit] at h
    have hkey : t.filterKey name = name := if_neg hid
    refine (ih hrest ?_).condition (by simp [isCondition, horder, hsince, hlimit])
    rw [hkey]
    exact h

/-- The entries of a cursor under the paths of their fields. -/
theorem cursor_eq_union {since entries : Keyed Json} {members : List (String × Json)}
    (h : cursor s t since (.obj members) = .ok entries) :
    let path field := (resolveField s t "since" field).toOption.getD ""
    (∀ member ∈ members, resolveField s t "since" member.1 = .ok (path member.1)) ∧
      entries = since.union (members.map fun member => (path member.1, member.2)) := by
  intro path
  rw [cursor] at h
  induction members generalizing since with
  | nil =>
    cases h
    exact ⟨by simp, rfl⟩
  | cons member members ih =>
    rw [List.foldlM_cons] at h
    obtain ⟨since', hone, h⟩ := Except.exists_of_bind_eq_ok h
    obtain ⟨resolved, hresolved, hone⟩ := Except.exists_of_bind_eq_ok hone
    have hpath : path member.1 = resolved := by
      change (resolveField s t "since" member.1).toOption.getD "" = resolved
      rw [hresolved]
      rfl
    cases hone
    obtain ⟨hmembers, hentries⟩ := ih h
    refine ⟨List.forall_mem_cons.mpr ⟨hpath ▸ hresolved, hmembers⟩, ?_⟩
    rw [List.map_cons, Keyed.union_cons, hpath]
    exact hentries

/-- A cursor is passed where each of its entries is that no later one with the same path replaces. -/
theorem truth_cursor {entries : Keyed Json} {members : List (String × Json)}
    (h : cursor s t [] (.obj members) = .ok entries) (holds : Condition → Bool) :
    (entries.all fun entry => holds ⟨entry.1, .gt, .single entry.2⟩) = true ↔
      ∀ member, Latest (fun member => resolveField s t "since" member.1) members member →
        ∃ path, resolveField s t "since" member.1 = .ok path ∧
          holds ⟨path, .gt, .single member.2⟩ = true := by
  obtain ⟨hpaths, hentries⟩ := cursor_eq_union h
  let path field := (resolveField s t "since" field).toOption.getD ""
  have hmem : ∀ entry, entry ∈ entries ↔ ∃ member,
      Latest (fun member : String × Json => path member.1) members member ∧
        (path member.1, member.2) = entry := by
    intro entry
    rw [hentries, Keyed.mem_union_iff .nil, Keyed.latest_map]
    exact or_iff_left fun hnil => by cases hnil.1
  rw [List.all_eq_true]
  constructor
  · intro hall member hlatest
    refine ⟨path member.1, hpaths member hlatest.mem, hall _ ((hmem _).mpr ⟨member, ?_, rfl⟩)⟩
    exact hlatest.of_key fun other hother heq => by
      rw [hpaths other hother, hpaths member hlatest.mem]
      exact congrArg Except.ok heq
  · intro hall entry hentry
    obtain ⟨member, hlatest, rfl⟩ := (hmem entry).mp hentry
    obtain ⟨found, hfound, hholds⟩ := hall member (hlatest.of_key fun other hother heq => by
      rw [hpaths other hother, hpaths member hlatest.mem] at heq
      exact Except.ok.inj heq)
    cases (hpaths member hlatest.mem).symm.trans hfound
    exact hholds

theorem forall₂_of_sortRules {raw : Json} {rules : List SortRule}
    (h : sortRules s t raw = .ok rules) : ∃ items, sortItems raw = .ok items ∧
      List.Forall₂ (fun item rule => resolveField s t "orderBy" (sortItem item).1 = .ok rule.field ∧
        rule.direction = (sortItem item).2) (items.filter (· ≠ "")) rules := by
  obtain ⟨items, hitems, h⟩ := Except.exists_of_bind_eq_ok h
  refine ⟨items, hitems, (Except.forall₂_of_mapM_eq_ok h).imp fun item rule hrule => ?_⟩
  obtain ⟨field, hfield, hrule⟩ := Except.exists_of_bind_eq_ok hrule
  cases hrule
  exact ⟨hfield, rfl⟩

theorem limit_of_limitOf {raw : Json} {limit : Option Nat} (h : limitOf maxLimit raw = .ok limit) :
    (raw = .null ∧ limit = none) ∨
      ∃ n, requested? raw = some n ∧ limit = some (min n maxLimit) := by
  cases hraw : requested? raw with
  | none =>
    cases raw with
    | null =>
      cases h
      exact .inl ⟨rfl, rfl⟩
    | num n =>
      change n.toUnsigned? = none at hraw
      simp only [limitOf, hraw] at h
      cases h
    | str text =>
      change Number.unsigned? (Text.trimChars text.toList) = none at hraw
      simp only [limitOf, hraw] at h
      cases h
    | _ => cases h
  | some n =>
    have hlimit : limitOf maxLimit raw = .ok (some (min n maxLimit)) := by
      cases raw with
      | num k =>
        change k.toUnsigned? = some n at hraw
        simp only [limitOf, hraw]
      | str text =>
        change Number.unsigned? (Text.trimChars text.toList) = some n at hraw
        simp only [limitOf, hraw]
      | _ => cases hraw
    cases h.symm.trans hlimit
    exact .inr ⟨n, rfl, rfl⟩

/-- The filter is passed where the condition of each argument is that no later one with the same
filter key replaces. -/
theorem Reads.truth_filter {args left : Keyed Json} {q : Query} {f : Option Filter}
    (h : Reads s t maxLimit {} [] args q left) (hf : compileAll s t left = .ok f)
    (holds : Condition → Bool) : f.all (Filter.truth holds) = true ↔
      ∀ arg, Latest (fun arg => t.filterKey arg.1) (args.filter fun arg => isCondition arg.1) arg →
        ∃ g, compileKey s t (t.filterKey arg.1) arg.2 = .ok g ∧ g.truth holds = true := by
  have hmem : ∀ entry, entry ∈ left ↔ ∃ arg, Latest (fun arg : String × Json => t.filterKey arg.1)
      (args.filter fun arg => isCondition arg.1) arg ∧ (t.filterKey arg.1, arg.2) = entry := by
    intro entry
    rw [h.filters, Keyed.mem_union_iff .nil, Keyed.latest_map]
    exact or_iff_left fun hnil => by cases hnil.1
  rw [Filter.truth_compileAll hf]
  constructor
  · exact fun hall arg hlatest =>
      hall (t.filterKey arg.1, arg.2) ((hmem _).mpr ⟨arg, hlatest, rfl⟩)
  · intro hall entry hentry
    obtain ⟨arg, hlatest, rfl⟩ := (hmem entry).mp hentry
    exact hall arg hlatest

theorem Reads.truth_since {args left : Keyed Json} {q : Query}
    (h : Reads s t maxLimit {} [] args q left) (holds : Condition → Bool) :
    (q.since.all fun entry => holds ⟨entry.1, .gt, .single entry.2⟩) = true ↔
      ∀ members, args.get? "since" = some (.obj members) → ∀ member,
        Latest (fun member => resolveField s t "since" member.1) members member →
          ∃ path, resolveField s t "since" member.1 = .ok path ∧
            holds ⟨path, .gt, .single member.2⟩ = true := by
  have hsince := h.since
  cases hraw : args.get? "since" with
  | none =>
    rw [hraw] at hsince
    change q.since = [] at hsince
    rw [hsince]
    exact iff_of_true rfl fun _ hmembers => by cases hmembers
  | some raw =>
    rw [hraw] at hsince
    change cursor s t [] raw = .ok q.since at hsince
    cases raw with
    | obj members =>
      rw [truth_cursor hsince]
      constructor
      · intro hall members' hsame
        cases hsame
        exact hall
      · exact fun hall => hall members rfl
    | _ => cases hsince

/-- What a query has of the arguments that it was compiled from. Conditions with the same filter key
meet, as the `id` argument does with the key of equality of the identifier, and so do entries of the
cursor with the same path; of those that meet the query has the last one. -/
structure Carries (s : Schema) (t : DocumentType) (maxLimit : Nat) (args : Keyed Json) (q : Query) :
    Prop where
  passes : ∀ holds : Condition → Bool, q.truth holds = true ↔
    (∀ arg, Latest (fun arg => t.filterKey arg.1) (args.filter fun arg => isCondition arg.1) arg →
      ∃ f, compileKey s t (t.filterKey arg.1) arg.2 = .ok f ∧ f.truth holds = true) ∧
    ∀ members, args.get? "since" = some (.obj members) → ∀ member,
      Latest (fun member => resolveField s t "since" member.1) members member →
        ∃ path, resolveField s t "since" member.1 = .ok path ∧
          holds ⟨path, .gt, .single member.2⟩ = true
  identifies : t.AsksById s → ∀ raw f, compileKey s t (t.filterKey "id") raw = .ok f →
    ∃ w, idTarget? raw = some w ∧ f = .equals t.identifierName w
  sort : match args.get? "orderBy" with
    | none => q.sort = []
    | some raw => ∃ items, sortItems raw = .ok items ∧
      List.Forall₂ (fun item rule => resolveField s t "orderBy" (sortItem item).1 = .ok rule.field ∧
        rule.direction = (sortItem item).2) (items.filter (· ≠ "")) q.sort
  limit : match args.get? "limit" with
    | none => q.limit = none
    | some raw => (raw = .null ∧ q.limit = none) ∨
      ∃ n, requested? raw = some n ∧ q.limit = some (min n maxLimit)

/-- A query has the conditions of its arguments, the entries of the cursor, the order and the limit,
but for a condition or an entry that a later one with the same filter key or path replaces. -/
theorem compile_carries {args : Keyed Json} {q : Query} (hargs : args.Ascending)
    (h : compile s t maxLimit args = .ok q) : Carries s t maxLimit args q := by
  obtain ⟨⟨read, left⟩, hread, h⟩ := Except.exists_of_bind_eq_ok h
  obtain ⟨filter, hfilter, h⟩ := Except.exists_of_bind_eq_ok h
  cases h
  have hnames : args.keys.Nodup := List.pairwise_map.mpr (hargs.imp fun hlt => ne_of_lt hlt)
  have hreads := reads_of_readArguments hnames hread
  have hsort := hreads.sort
  have hlimit := hreads.limit
  refine ⟨fun holds => ?_, fun hid raw f hf => (Filter.compileKey_asksById hid).mp hf, ?_, ?_⟩
  · rw [truth, Bool.and_eq_true]
    exact and_congr (hreads.truth_filter hfilter holds) (hreads.truth_since holds)
  · cases hraw : args.get? "orderBy" with
    | none =>
      rw [hraw] at hsort
      exact hsort
    | some raw =>
      rw [hraw] at hsort
      exact forall₂_of_sortRules hsort
  · cases hraw : args.get? "limit" with
    | none =>
      rw [hraw] at hlimit
      exact hlimit
    | some raw =>
      rw [hraw] at hlimit
      exact limit_of_limitOf hlimit

section

/-- Cantons under an identifier of their own. -/
private def canton : DocumentType := { name := "Canton", fields := [.ofIdentifier "id"] }

private theorem canton_asksById : canton.AsksById ⟨[canton]⟩ :=
  asksById_of_isWord (f := .ofIdentifier "id") (by decide) (by decide) (by decide) (by decide)
    (by decide)

/-- Arguments of every kind. -/
private def manifold : Keyed Json :=
  [("id", .str "c1"), ("limit", .int 5000), ("orderBy", .str "-id"),
    ("since", .obj [("id", .str "a")])]

theorem compile_carries_manifold : ∃ q, compile ⟨[canton]⟩ canton 100 manifold = .ok q ∧
    Carries ⟨[canton]⟩ canton 100 manifold q := by
  have hfield : ∀ key, resolveField ⟨[canton]⟩ canton key "id" = .ok "id" := by
    intro key
    have hpath : Schema.resolvePath ⟨[canton]⟩ canton "id" = .ok "id" := canton_asksById.path
    unfold resolveField
    rw [hpath]
  have hsort : sortRules ⟨[canton]⟩ canton (.str "-id") = .ok [⟨"id", .descending⟩] := by
    have hitems : sortItems (.str "-id") = .ok ["-id"] := rfl
    have hitem : sortItem "-id" = ("id", .descending) := rfl
    simp [sortRules, hitems, hitem, hfield, bind, Except.bind, pure, Except.pure]
  have hcursor : cursor ⟨[canton]⟩ canton [] (.obj [("id", .str "a")]) = .ok [("id", .str "a")] := by
    simp [cursor, hfield, Keyed.insert, bind, Except.bind, pure, Except.pure]
  have hread : readArguments ⟨[canton]⟩ canton 100 {} [] manifold = .ok
      ({ sort := [⟨"id", .descending⟩], since := [("id", .str "a")], limit := some 100 },
        [(canton.filterKey "id", .str "c1")]) := by
    have hlimit : limitOf 100 (.int 5000) = .ok (some 100) := rfl
    simp [manifold, readArguments, hsort, hcursor, hlimit, Keyed.insert, DocumentType.filterKey,
      bind, Except.bind]
  have hkey : compileKey ⟨[canton]⟩ canton (canton.filterKey "id") (.str "c1") =
      .ok (.equals "id" (.str "c1")) :=
    (Filter.compileKey_asksById canton_asksById).mpr
      ⟨_, Filter.idTarget?_str (by decide) (by decide), rfl⟩
  have hok : compile ⟨[canton]⟩ canton 100 manifold = .ok
      { filter := some (.equals "id" (.str "c1")), sort := [⟨"id", .descending⟩]
        since := [("id", .str "a")], limit := some 100 } := by
    unfold compile
    rw [hread]
    simp [compileAll, hkey, Filter.all, bind, Except.bind, pure, Except.pure]
  exact ⟨_, hok, compile_carries (by unfold manifold Keyed.Ascending; decide) hok⟩

/-- Where a condition on the identifier is given beside the `id` argument one of them is dropped, and
the query passes documents with another identifier than the one asked for. -/
theorem exists_id_dropped :
    ∃ (s : Schema) (t : DocumentType) (args : Keyed Json) (q : Query) (holds : Condition → Bool),
      s.check.isOk = true ∧ s.type? t.name = some t ∧ args.Ascending ∧
      compile s t 1000 args = .ok q ∧ args.get? "id" = some (.str "a") ∧
      q.truth holds = true ∧ holds ⟨t.identifierName, .eq, .single (.str "a")⟩ = false := by
  let args : Keyed Json := [("id", .str "a"), ("idEquals", .str "b")]
  let holds (c : Condition) : Bool := c.operand.values.all fun v => v.str? == some "b"
  have hsame : compile ⟨[canton]⟩ canton 1000 args =
      compile ⟨[canton]⟩ canton 1000 [("id", .str "b")] := rfl
  refine ⟨⟨[canton]⟩, canton, args, { filter := some (.equals "id" (.str "b")) }, holds,
    by decide +kernel, by decide +kernel, ?_, ?_, rfl, by decide +kernel, by decide +kernel⟩
  · unfold Keyed.Ascending
    decide
  · rw [hsame]
    exact (compile_asksById canton_asksById 1000 (.str "b")).1 _
      (Filter.idTarget?_str (by decide) (by decide))

end

end Query

end DocumentEngine
