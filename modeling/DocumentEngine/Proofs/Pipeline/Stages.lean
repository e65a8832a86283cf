import DocumentEngine.Operation.Catalog
import DocumentEngine.Proofs.Pipeline.Additions
import DocumentEngine.Schema.Structure
import Mathlib

/-!
Which handlers run for an operation. A tag puts the name of a type and that of a stage together, so
that a stage runs whatever is registered where the two names together are the same. The stages of
an operation stay apart exactly where no other type has a name that begins such a tag, and where
the operation is not named like the stages of writes and reads.
-/

namespace DocumentEngine

/-- What is registered: a handler for a stage of a type, or the hooks of a type. -/
inductive Registration (α : Type) where
  | stage (type stage : String) (handler : Handler α)
  | hooks (type : String) (hooks : String → Option (Handler α))

namespace Registration

variable {α : Type}

/-- The type that a registration is for. -/
def type : Registration α → String
  | .stage type _ _ => type
  | .hooks type _ => type

/-- The handler of a stage. -/
def handler? : Registration α → Option (Handler α)
  | .stage _ _ handler => some handler
  | .hooks _ _ => none

/-- The handler, if type and stage together have a name. -/
def handlerUnder? (name : String) : Registration α → Option (Handler α)
  | .stage type own handler => if type ++ own = name then some handler else none
  | .hooks _ _ => none

/-- The hooks, if they are for a type. -/
def hooksOf? (type : String) : Registration α → Option (String → Option (Handler α))
  | .stage _ _ _ => none
  | .hooks other found => if other = type then some found else none

/-- The hook of a type under a name: of the hooks of a type those count that were registered
last. -/
def lastHook? (entries : List (Registration α)) (type name : String) : Option (Handler α) :=
  (entries.filterMap (hooksOf? type)).getLast?.bind fun hooks => hooks name

/-- What a registration adds to a registry. -/
def addition (space : String) : Registration α → Addition (Handler α)
  | .stage type own handler => .tagged (Registry.tag space type own) handler
  | .hooks type found => .typed type found

end Registration

namespace Registry

variable {α : Type} {space type stage : String}

/-- The registry with one registration more. -/
def add (space : String) (r : Registry α) : Registration α → Registry α
  | .stage type stage handler => r.register (tag space type stage) handler
  | .hooks type hooks => r.registerTypeHooks type hooks

/-- The registry that is filled by registrations in order. -/
def fill (space : String) (entries : List (Registration α)) : Registry α :=
  entries.foldl (add space) {}

theorem tag_inj {other stage' : String} :
    tag space other stage' = tag space type stage ↔ other ++ stage' = type ++ stage := by
  change space ++ "::" ++ other ++ stage' = space ++ "::" ++ type ++ stage ↔ _
  simp [← String.toList_inj]

theorem under?_addition (entry : Registration α) :
    (entry.addition space).under? (tag space type stage) = entry.handlerUnder? (type ++ stage) := by
  cases entry with
  | stage other own handler =>
    simp only [Registration.addition, Addition.under?, Registration.handlerUnder?, tag_inj]
  | hooks other hooks => rfl

theorem hooksOf?_addition (entry : Registration α) :
    (entry.addition space).hooksOf? type = entry.hooksOf? type := by
  cases entry <;> rfl

theorem fill_eq_ofList (space : String) (entries : List (Registration α)) :
    fill space entries = ofList (entries.map (Registration.addition space)) := by
  rw [fill, ofList, List.foldl_map]
  congr 1
  funext r entry
  cases entry <;> rfl

/-- What runs for the stages of a type: for each the handlers whose type and stage together have its
name, in the order of their registration, and then the hook of the type. -/
theorem chain_fill (space : String) (entries : List (Registration α)) (type : String)
    (stages : List String) : (fill space entries).chain space type stages =
      stages.flatMap fun stage => entries.filterMap (·.handlerUnder? (type ++ stage)) ++
        (Registration.lastHook? entries type (Text.lower stage)).toList := by
  rw [fill_eq_ofList, chain_ofList]
  refine congrArg (stages.flatMap ·) (funext fun stage => ?_)
  have hunder : Addition.under? (tag space type stage) ∘ Registration.addition space =
      Registration.handlerUnder? (α := α) (type ++ stage) := funext under?_addition
  have hhooks : Addition.hooksOf? type ∘ Registration.addition space =
      Registration.hooksOf? (α := α) type := funext hooksOf?_addition
  rw [Addition.stage, Addition.lastHook?, List.filterMap_map, List.filterMap_map, hunder, hhooks]
  rfl

end Registry

/-- Where a handler of a chain comes from: a registration for a stage, by its position, or a hook
of the type, by its name. -/
inductive Source where
  | stage (position : Nat)
  | hook (name : String)
  deriving DecidableEq

namespace Source

variable {α : Type} {entries : List (Registration α)} {type stage name : String} {i : Nat}

/-- The handler of a source in the chains of a type. -/
def handler? (entries : List (Registration α)) (type : String) : Source → Option (Handler α)
  | .stage i => entries[i]?.bind Registration.handler?
  | .hook name => Registration.lastHook? entries type name

/-- A source that is registered for a type and one of some stages. -/
def RegisteredFor (entries : List (Registration α)) (type : String) (stages : List String) :
    Source → Prop
  | .stage i => ∃ own ∈ stages, ∃ handler, entries[i]? = some (.stage type own handler)
  | .hook name => (Registration.lastHook? entries type name).isSome = true ∧
      ∃ own ∈ stages, Text.lower own = name

/-- The sources of a stage. -/
def ofStage (entries : List (Registration α)) (type stage : String) : List Source :=
  (entries.zipIdx.filterMap fun x =>
    (x.1.handlerUnder? (type ++ stage)).map fun _ => Source.stage x.2) ++
  (Registration.lastHook? entries type (Text.lower stage)).toList.map fun _ =>
    .hook (Text.lower stage)

theorem map_handler?_ofStage (entries : List (Registration α)) (type stage : String) :
    (ofStage entries type stage).map (handler? entries type) =
      (entries.filterMap (·.handlerUnder? (type ++ stage)) ++
        (Registration.lastHook? entries type (Text.lower stage)).toList).map some := by
  rw [ofStage, List.map_append, List.map_append]
  congr 1
  · conv_rhs => rw [← List.zipIdx_map_fst 0 entries, List.filterMap_map]
    rw [List.map_filterMap, List.map_filterMap]
    refine List.filterMap_congr fun x hx => ?_
    have hget := List.mem_zipIdx_iff_getElem?.mp hx
    obtain ⟨entry, i⟩ := x
    cases entry with
    | stage other own handler =>
      simp only [Registration.handlerUnder?, Function.comp_apply]
      split
      · simp only [Option.map_some, handler?, hget]
        rfl
      · rfl
    | hooks other found => rfl
  · cases hhook : Registration.lastHook? entries type (Text.lower stage) with
    | none => rfl
    | some handler => simp [handler?, hhook]

theorem stage_mem_ofStage : .stage i ∈ ofStage entries type stage ↔ ∃ other own handler,
    entries[i]? = some (.stage other own handler) ∧ other ++ own = type ++ stage := by
  simp only [ofStage, List.mem_append, List.mem_filterMap, Option.map_eq_some_iff, List.mem_map,
    reduceCtorEq, and_false, exists_false, or_false, Source.stage.injEq]
  constructor
  · rintro ⟨⟨entry, j⟩, hmem, handler, hhandler, rfl⟩
    have hget := List.mem_zipIdx_iff_getElem?.mp hmem
    cases entry with
    | stage other own found =>
      rw [Registration.handlerUnder?] at hhandler
      split at hhandler
      · exact ⟨other, own, found, hget, ‹_›⟩
      · cases hhandler
    | hooks other found => cases hhandler
  · rintro ⟨other, own, handler, hget, hname⟩
    exact ⟨(_, i), List.mem_zipIdx_iff_getElem?.mpr hget, handler, if_pos hname, rfl⟩

theorem hook_mem_ofStage : .hook name ∈ ofStage entries type stage ↔
    (Registration.lastHook? entries type name).isSome = true ∧ Text.lower stage = name := by
  simp only [ofStage, List.mem_append, List.mem_filterMap, Option.map_eq_some_iff, List.mem_map,
    reduceCtorEq, and_false, exists_false, false_or, Source.hook.injEq, Option.mem_toList]
  constructor
  · rintro ⟨handler, hhandler, rfl⟩
    exact ⟨Option.isSome_iff_exists.mpr ⟨handler, hhandler⟩, rfl⟩
  · rintro ⟨hsome, rfl⟩
    obtain ⟨handler, hhandler⟩ := Option.isSome_iff_exists.mp hsome
    exact ⟨handler, hhandler, rfl⟩

theorem nodup_ofStage (entries : List (Registration α)) (type stage : String) :
    (ofStage entries type stage).Nodup := by
  have hpositions : entries.zipIdx.Pairwise fun x y => x.2 ≠ y.2 := by
    have hrange : (entries.zipIdx.map Prod.snd).Nodup := by
      rw [List.zipIdx_map_snd]
      exact List.nodup_range'
    exact List.pairwise_map.mp hrange
  refine List.nodup_append.mpr ⟨List.pairwise_filterMap.mpr (hpositions.imp ?_), ?_, ?_⟩
  · rintro x y hne source hx source' hy rfl
    obtain ⟨_, -, rfl⟩ := Option.map_eq_some_iff.mp hx
    obtain ⟨_, -, hsame⟩ := Option.map_eq_some_iff.mp hy
    exact hne (Source.stage.inj hsame).symm
  · cases Registration.lastHook? entries type (Text.lower stage) <;> simp
  · intro source hsource source' hsource' heq
    obtain ⟨_, -, hstage⟩ := List.mem_filterMap.mp hsource
    obtain ⟨_, -, rfl⟩ := Option.map_eq_some_iff.mp hstage
    obtain ⟨_, -, rfl⟩ := List.mem_map.mp hsource'
    cases heq

end Source

namespace Registry

variable {α : Type} {space : String} {entries : List (Registration α)} {type : String}
  {stages : List String}

/-- The chain of some stages of a type runs each of its sources once, the sources are what is
registered for the type and one of the stages, and none of them is registered for the stage behind
reads. -/
structure RunsOwn (space : String) (entries : List (Registration α)) (type : String)
    (stages : List String) (sources : List Source) : Prop where
  chain : ((fill space entries).chain space type stages).map some =
    sources.map (·.handler? entries type)
  once : sources.Nodup
  own : ∀ source, source ∈ sources ↔ source.RegisteredFor entries type stages
  unread : ∀ source ∈ sources, ¬source.RegisteredFor entries type [readStage]

theorem chain_eq_map_sources (space : String) (entries : List (Registration α)) (type : String)
    (stages : List String) : ((fill space entries).chain space type stages).map some =
      (stages.flatMap (Source.ofStage entries type)).map (·.handler? entries type) := by
  rw [chain_fill, List.map_flatMap, List.map_flatMap]
  exact congrArg (stages.flatMap ·) (funext fun stage =>
    (Source.map_handler?_ofStage entries type stage).symm)

/-- A tag of one type is that of one stage. -/
theorem append_left_cancel {a b : String} (h : type ++ a = type ++ b) : a = b := by
  have hlists := congrArg String.toList h
  rw [String.toList_append, String.toList_append, List.append_cancel_left_eq] at hlists
  exact String.toList_inj.mp hlists

/-- Stages with names that differ, also in lower case, run nothing twice. -/
theorem nodup_sources (h : (stages.map Text.lower).Nodup) :
    (stages.flatMap (Source.ofStage entries type)).Nodup := by
  refine List.nodup_flatMap.mpr ⟨fun stage _ => Source.nodup_ofStage entries type stage, ?_⟩
  refine (List.pairwise_map.mp h).imp fun {a b} hne source ha hb => ?_
  cases source with
  | stage i =>
    obtain ⟨other, own, handler, hget, hname⟩ := Source.stage_mem_ofStage.mp ha
    obtain ⟨other', own', handler', hget', hname'⟩ := Source.stage_mem_ofStage.mp hb
    cases hget.symm.trans hget'
    exact hne (congrArg Text.lower (append_left_cancel (hname.symm.trans hname')))
  | hook name =>
    exact hne ((Source.hook_mem_ofStage.mp ha).2.trans (Source.hook_mem_ofStage.mp hb).2.symm)

/-- Where no other type has a name that begins a tag of the stages, what runs is what is registered
for the type. -/
theorem mem_sources_iff (hothers : ∀ entry ∈ entries, entry.type ≠ type →
      ∀ stage ∈ stages, ¬entry.type.toList <+: (type ++ stage).toList) (source : Source) :
    source ∈ stages.flatMap (Source.ofStage entries type) ↔
      source.RegisteredFor entries type stages := by
  rw [List.mem_flatMap]
  cases source with
  | stage i =>
    simp only [Source.stage_mem_ofStage]
    constructor
    · rintro ⟨stage, hstage, other, own, handler, hget, hname⟩
      obtain rfl : other = type := by
        by_contra hne
        refine hothers _ (List.mem_of_getElem? hget) hne stage hstage ⟨own.toList, ?_⟩
        rw [← hname, String.toList_append]
        rfl
      obtain rfl := append_left_cancel hname
      exact ⟨own, hstage, handler, hget⟩
    · rintro ⟨own, hown, handler, hget⟩
      exact ⟨own, hown, type, own, handler, hget, rfl⟩
  | hook name =>
    simp only [Source.hook_mem_ofStage]
    constructor
    · rintro ⟨stage, hstage, hsome, hname⟩
      exact ⟨hsome, stage, hstage, hname⟩
    · rintro ⟨hsome, stage, hstage, hname⟩
      exact ⟨stage, hstage, hsome, hname⟩

/-- Names for the stages of an operation that keep them apart from each other, from the stage
behind reads and from the stages of the other types of a schema. -/
structure StagesApart (s : Schema) (t : DocumentType) (op : Operation) : Prop where
  write : op.context = .delete ∨ Text.lower (Text.upperFirst op.name) ≠ "write"
  read : Text.lower (Text.upperFirst op.name) ≠ "read"
  types : ∀ u ∈ s.types, u.name ≠ t.name → ∀ stage ∈ op.hookSuffixes,
    ¬u.name.toList <+: (t.name ++ stage).toList

variable {s : Schema} {t : DocumentType} {op : Operation}

theorem lower_write : Text.lower "Write" = "write" := by decide +kernel

theorem lower_read : Text.lower readStage = "read" := by decide +kernel

theorem mem_hookSuffixes {stage : String} : stage ∈ op.hookSuffixes ↔
    (op.context ≠ .delete ∧ stage = "Write") ∨ stage = Text.upperFirst op.name := by
  unfold Operation.hookSuffixes
  cases op.context <;> simp

theorem StagesApart.nodup_names (h : StagesApart s t op) :
    (op.hookSuffixes.map Text.lower).Nodup := by
  unfold Operation.hookSuffixes
  cases hcontext : op.context with
  | delete => exact List.nodup_singleton _
  | create | modify =>
    have hne := h.write.resolve_left (by rw [hcontext]; decide)
    simpa [lower_write] using hne.symm

theorem StagesApart.unread (h : StagesApart s t op) {stage : String}
    (hstage : stage ∈ op.hookSuffixes) : Text.lower stage ≠ "read" := by
  rcases mem_hookSuffixes.mp hstage with ⟨-, rfl⟩ | rfl
  · rw [lower_write]
    decide
  · exact h.read

/-- What is registered for stages that are not behind reads, not even in lower case, is not
registered for reads. -/
theorem not_registeredFor_read {source : Source} (h : source.RegisteredFor entries type stages)
    (hunread : ∀ stage ∈ stages, Text.lower stage ≠ "read") :
    ¬source.RegisteredFor entries type [readStage] := by
  intro hread
  cases source with
  | stage i =>
    obtain ⟨own, hmem, handler, hget⟩ := h
    obtain ⟨_, hread, handler', hget'⟩ := hread
    cases List.mem_singleton.mp hread
    cases hget.symm.trans hget'
    exact hunread _ hmem lower_read
  | hook name =>
    obtain ⟨-, own, hmem, rfl⟩ := h
    obtain ⟨-, _, hread, hname⟩ := hread
    cases List.mem_singleton.mp hread
    exact hunread own hmem (hname.symm.trans lower_read)

theorem runsOwn_of_stagesApart (h : StagesApart s t op)
    (hentries : ∀ entry ∈ entries, ∃ u ∈ s.types, u.name = entry.type) :
    RunsOwn space entries t.name op.hookSuffixes
      (op.hookSuffixes.flatMap (Source.ofStage entries t.name)) := by
  have hown (source : Source) :
      source ∈ op.hookSuffixes.flatMap (Source.ofStage entries t.name) ↔
        source.RegisteredFor entries t.name op.hookSuffixes := by
    refine mem_sources_iff (fun entry hentry hne stage hstage => ?_) source
    obtain ⟨u, hu, hname⟩ := hentries entry hentry
    rw [← hname] at hne ⊢
    exact h.types u hu hne stage hstage
  refine ⟨chain_eq_map_sources .., nodup_sources h.nodup_names, hown, fun source hsource => ?_⟩
  exact not_registeredFor_read ((hown source).mp hsource) fun _ hstage => h.unread hstage

/-- The handler that changes nothing. -/
def passing : Handler α := fun value _ next => next value

/-- Every hook of a type is the handler that changes nothing. -/
def everyHook (type : String) : List (Registration α) := [.hooks type fun _ => some passing]

theorem lastHook?_everyHook (type name : String) :
    Registration.lastHook? (everyHook (α := α) type) type name = some passing := by
  simp [everyHook, Registration.lastHook?, Registration.hooksOf?]

theorem filterMap_everyHook (type tag : String) :
    (everyHook (α := α) type).filterMap (·.handlerUnder? tag) = [] := rfl

theorem registeredFor_everyHook {source : Source}
    (h : source.RegisteredFor (everyHook (α := α) type) type stages) :
    ∃ stage ∈ stages, source = .hook (Text.lower stage) := by
  cases source with
  | stage i =>
    obtain ⟨own, -, handler, hget⟩ := h
    cases List.mem_singleton.mp (List.mem_of_getElem? hget)
  | hook name =>
    obtain ⟨-, stage, hstage, rfl⟩ := h
    exact ⟨stage, hstage, rfl⟩

/-- Two stages with one name in lower case would run the hook of that name twice. -/
theorem write_of_runsOwn {sources : List Source}
    (h : RunsOwn space (everyHook (α := α) type) type op.hookSuffixes sources) :
    op.context = .delete ∨ Text.lower (Text.upperFirst op.name) ≠ "write" := by
  by_contra hboth
  rw [not_or, not_not] at hboth
  obtain ⟨hcontext, hwrite⟩ := hboth
  have hsuffixes : op.hookSuffixes = ["Write", Text.upperFirst op.name] := by
    unfold Operation.hookSuffixes
    cases hop : op.context with
    | delete => exact absurd hop hcontext
    | create => rfl
    | modify => rfl
  have htwo : sources.length = 2 := by
    have hlength := congrArg List.length h.chain
    rw [List.length_map, List.length_map, chain_fill, hsuffixes] at hlength
    rw [← hlength]
    simp [lastHook?_everyHook, filterMap_everyHook]
  have hone : sources ⊆ [.hook "write"] := fun source hsource => by
    obtain ⟨stage, hstage, rfl⟩ := registeredFor_everyHook ((h.own source).mp hsource)
    rcases mem_hookSuffixes.mp hstage with ⟨-, rfl⟩ | rfl
    · rw [lower_write]
      exact List.mem_singleton_self _
    · rw [hwrite]
      exact List.mem_singleton_self _
  have hle := (List.subperm_of_subset h.once hone).length_le
  rw [htwo] at hle
  exact absurd hle (by decide)

/-- An operation named like the stage behind reads would run the hook of reads. -/
theorem read_of_runsOwn {sources : List Source}
    (h : RunsOwn space (everyHook (α := α) type) type op.hookSuffixes sources) :
    Text.lower (Text.upperFirst op.name) ≠ "read" := by
  intro hread
  have hsome : (Registration.lastHook? (everyHook (α := α) type) type "read").isSome = true := by
    rw [lastHook?_everyHook]
    rfl
  have hmem : .hook "read" ∈ sources := (h.own _).mpr
    ⟨hsome, _, mem_hookSuffixes.mpr (.inr rfl), hread⟩
  exact h.unread _ hmem ⟨hsome, _, List.mem_singleton_self _, lower_read⟩

/-- A type with a name that begins a tag would have a handler of its own run under that tag. -/
theorem not_isPrefix_of_runsOwn {other stage : String} (hne : other ≠ type)
    (hstage : stage ∈ stages)
    (h : ∀ own : String, ∃ sources,
      RunsOwn space [.stage other own (passing (α := α))] type stages sources) :
    ¬other.toList <+: (type ++ stage).toList := by
  rintro ⟨rest, hrest⟩
  have hname : other ++ String.ofList rest = type ++ stage := by
    rw [← String.toList_inj, String.toList_append, String.toList_ofList, hrest]
  obtain ⟨sources, hruns⟩ := h (String.ofList rest)
  have hmem : some (passing (α := α)) ∈ ((fill space
      [.stage other (String.ofList rest) passing]).chain space type stages).map some := by
    rw [chain_fill]
    refine List.mem_map_of_mem (List.mem_flatMap.mpr ⟨stage, hstage, List.mem_append_left _ ?_⟩)
    simp [Registration.handlerUnder?, hname]
  rw [hruns.chain] at hmem
  obtain ⟨source, hsource, -⟩ := List.mem_map.mp hmem
  have hregistered := (hruns.own source).mp hsource
  cases source with
  | stage i =>
    obtain ⟨own, -, handler, hget⟩ := hregistered
    have hsame := List.mem_singleton.mp (List.mem_of_getElem? hget)
    exact hne (Registration.stage.inj hsame).1.symm
  | hook name => cases hregistered.1

theorem stagesApart_of_runsOwn (ht : t ∈ s.types)
    (h : ∀ entries : List (Registration α),
      (∀ entry ∈ entries, ∃ u ∈ s.types, u.name = entry.type) →
        ∃ sources, RunsOwn space entries t.name op.hookSuffixes sources) : StagesApart s t op := by
  obtain ⟨hooked, hruns⟩ := h (everyHook t.name) fun entry hentry => by
    rw [List.mem_singleton.mp hentry]
    exact ⟨t, ht, rfl⟩
  refine ⟨write_of_runsOwn hruns, read_of_runsOwn hruns, fun u hu hne stage hstage =>
    not_isPrefix_of_runsOwn hne hstage fun own => h [.stage u.name own passing]
      fun entry hentry => ?_⟩
  rw [List.mem_singleton.mp hentry]
  exact ⟨u, hu, rfl⟩

/-- What runs for the stages of an operation: for each stage the handlers whose type and stage
together have its tag, and then the hook of the type. However handlers are registered for the types
of a schema, that is each registration for the type and the stages of the operation once, and none
for another type or for the stage behind reads, exactly where the names keep these stages apart. -/
theorem chain_runs_own_iff (ht : t ∈ s.types) (space : String) (op : Operation) :
    (∀ entries : List (Registration α), (fill space entries).chain space t.name op.hookSuffixes =
      op.hookSuffixes.flatMap fun stage => entries.filterMap (·.handlerUnder? (t.name ++ stage)) ++
        (Registration.lastHook? entries t.name (Text.lower stage)).toList) ∧
    ((∀ entries : List (Registration α),
        (∀ entry ∈ entries, ∃ u ∈ s.types, u.name = entry.type) →
          ∃ sources, RunsOwn space entries t.name op.hookSuffixes sources) ↔ StagesApart s t op) :=
  ⟨fun entries => chain_fill space entries t.name op.hookSuffixes, stagesApart_of_runsOwn ht,
    fun h _ hentries => ⟨_, runsOwn_of_stagesApart h hentries⟩⟩

section

/-- Notes with a declared operation. -/
private def notes (descriptor : String) : DocumentType :=
  { name := "Nota", fields := [.ofIdentifier "id", .ofScalar "texto" .string]
    mutations := { operations := [descriptor] } }

/-- Authors. -/
private def authors : DocumentType := { name := "Autor", fields := [.ofIdentifier "id"] }

private def publish : Operation := ⟨"publish", .modify, ["texto"], [], false⟩

/-- Handlers of notes and of authors, one of them behind reads, and a hook of notes. -/
private def registrations : List (Registration Document) :=
  [.stage "Nota" "Write" passing, .stage "Autor" "Write" passing, .stage "Nota" readStage passing,
    .stage "Nota" "Publish" passing,
    .hooks "Nota" fun name => if name = "publish" then some passing else none]

private theorem hookSuffixes_publish : publish.hookSuffixes = ["Write", "Publish"] := by cbv

/-- Where notes are published, two handlers and the hook run, each of them once. -/
theorem chain_runs_own_iff_notes :
    ((fill "default" registrations).chain "default" "Nota" publish.hookSuffixes).length = 3 ∧
      ∃ sources, RunsOwn "default" registrations "Nota" publish.hookSuffixes sources := by
  have hown := chain_runs_own_iff (α := Document) (t := notes "publish: assign = [texto]")
    (s := ⟨[notes "publish: assign = [texto]", authors]⟩) List.mem_cons_self "default" publish
  have hname : Text.lower (Text.upperFirst publish.name) = "publish" := by cbv
  have hapart : StagesApart ⟨[notes "publish: assign = [texto]", authors]⟩
      (notes "publish: assign = [texto]") publish :=
    { write := .inr (by rw [hname]; decide)
      read := by
        rw [hname]
        decide
      types := by
        rw [hookSuffixes_publish]
        simp [notes, authors] }
  refine ⟨?_, hown.2.mpr hapart registrations ?_⟩
  · have hchain := hown.1 registrations
    change (fill "default" registrations).chain "default" "Nota" publish.hookSuffixes = _ at hchain
    rw [hchain, hookSuffixes_publish]
    cbv
  · simp [registrations, Registration.type, notes, authors]

private def write : Operation := ⟨"write", .modify, ["texto"], [], false⟩

private def read : Operation := ⟨"read", .modify, ["texto"], [], false⟩

private def lineWrite : Operation := ⟨"lineWrite", .modify, ["total"], [], false⟩

/-- Orders with an operation for their lines. -/
private def orders : DocumentType :=
  { name := "Order", fields := [.ofIdentifier "id", .ofScalar "total" .int]
    mutations := { operations := ["lineWrite: assign = [total]"] } }

/-- The lines of orders. -/
private def orderLines : DocumentType := { name := "OrderLine", fields := [.ofIdentifier "id"] }

/-- A schema that is not refused, with an operation of one of its types. -/
def Offers (s : Schema) (type : String) (op : Operation) : Prop :=
  s.check = .ok () ∧ (∃ c, Catalog.ofSchema "default" s = .ok c) ∧
    ∃ t ∈ s.types, t.name = type ∧ ∃ operations, t.operations = .ok operations ∧ op ∈ operations

/-- The operations of a type that claims its only field for one of them. -/
private def withImplicit (declared : List Operation) : List Operation :=
  [.ofImplicit "create" .create [], .ofImplicit "update" .modify [],
    .ofImplicit "delete" .delete []] ++ declared

private theorem operations_write : (notes "write: assign = [texto]").operations =
    .ok (withImplicit [write]) := by
  cbv

private theorem operations_read : (notes "read: assign = [texto]").operations =
    .ok (withImplicit [read]) := by
  cbv

private theorem operations_lineWrite : orders.operations = .ok (withImplicit [lineWrite]) := by
  cbv

private theorem offers_write : Offers ⟨[notes "write: assign = [texto]"]⟩ "Nota" write := by
  have hcheck : (⟨[notes "write: assign = [texto]"]⟩ : Schema).check = .ok () := by cbv
  have hcatalog : Catalog.ofSchema "default" ⟨[notes "write: assign = [texto]"]⟩ =
      .ok ⟨"default", [("Nota", withImplicit [write])]⟩ := by cbv
  exact ⟨hcheck, ⟨_, hcatalog⟩, _, List.mem_cons_self, rfl, _, operations_write,
    List.mem_append_right _ (List.mem_singleton_self _)⟩

private theorem offers_read : Offers ⟨[notes "read: assign = [texto]"]⟩ "Nota" read := by
  have hcheck : (⟨[notes "read: assign = [texto]"]⟩ : Schema).check = .ok () := by cbv
  have hcatalog : Catalog.ofSchema "default" ⟨[notes "read: assign = [texto]"]⟩ =
      .ok ⟨"default", [("Nota", withImplicit [read])]⟩ := by cbv
  exact ⟨hcheck, ⟨_, hcatalog⟩, _, List.mem_cons_self, rfl, _, operations_read,
    List.mem_append_right _ (List.mem_singleton_self _)⟩

private theorem offers_lineWrite : Offers ⟨[orders, orderLines]⟩ "Order" lineWrite := by
  have hcheck : (⟨[orders, orderLines]⟩ : Schema).check = .ok () := by cbv
  have hcatalog : Catalog.ofSchema "default" ⟨[orders, orderLines]⟩ = .ok ⟨"default",
      [("Order", withImplicit [lineWrite]), ("OrderLine", withImplicit [])]⟩ := by cbv
  exact ⟨hcheck, ⟨_, hcatalog⟩, _, List.mem_cons_self, rfl, _, operations_lineWrite,
    List.mem_append_right _ (List.mem_singleton_self _)⟩

/-- A handler runs once for each stage whose name makes its tag. -/
theorem chain_single (handler : Handler α) (space type stage other : String)
    (stages : List String) : (fill space [.stage type stage handler]).chain space other stages =
      (stages.filter fun name => type ++ stage = other ++ name).map fun _ => handler := by
  rw [chain_fill]
  induction stages with
  | nil => rfl
  | cons name stages ih =>
    rw [List.flatMap_cons, ih, List.filter_cons]
    by_cases hname : type ++ stage = other ++ name <;>
      simp [hname, Registration.handlerUnder?, Registration.lastHook?, Registration.hooksOf?]

/-- An operation that is named like the common stage of writes runs its handlers twice, one that is
named like the stage behind reads runs the handlers of that stage, and one whose name completes the
name of another type runs the handlers of that type. -/
theorem exists_stages_mixed :
    (Offers ⟨[notes "write: assign = [texto]"]⟩ "Nota" write ∧ ∀ handler : Handler Document,
      (fill "default" [.stage "Nota" "Write" handler]).chain "default" "Nota" write.hookSuffixes =
        [handler, handler]) ∧
    (Offers ⟨[notes "read: assign = [texto]"]⟩ "Nota" read ∧ ∀ handler : Handler Document,
      (fill "default" [.stage "Nota" readStage handler]).chain "default" "Nota" read.hookSuffixes =
        [handler]) ∧
    Offers ⟨[orders, orderLines]⟩ "Order" lineWrite ∧ ∀ handler : Handler Document,
      (fill "default" [.stage "OrderLine" "Write" handler]).chain "default" "Order"
        lineWrite.hookSuffixes = [handler] := by
  have hwrite : write.hookSuffixes = ["Write", "Write"] := by cbv
  have hread : read.hookSuffixes = ["Write", "Read"] := by cbv
  have hline : lineWrite.hookSuffixes = ["Write", "LineWrite"] := by cbv
  refine ⟨⟨offers_write, fun handler => ?_⟩, ⟨offers_read, fun handler => ?_⟩, offers_lineWrite,
    fun handler => ?_⟩
  · have htwice : ["Write", "Write"].filter (fun name => "Nota" ++ "Write" = "Nota" ++ name) =
        ["Write", "Write"] := by decide
    rw [chain_single, hwrite, htwice]
    rfl
  · have hbehind : ["Write", "Read"].filter (fun name => "Nota" ++ readStage = "Nota" ++ name) =
        ["Read"] := by decide
    rw [chain_single, hread, hbehind]
    rfl
  · have hother : ["Write", "LineWrite"].filter
        (fun name => "OrderLine" ++ "Write" = "Order" ++ name) = ["LineWrite"] := by decide
    rw [chain_single, hline, hother]
    rfl

end

end Registry

end DocumentEngine
