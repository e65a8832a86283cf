import DocumentEngine.Filter.Compile
import DocumentEngine.Proofs.Text

/-!
The `id` argument. It stands for a filter key that the compiler reads again, and its value goes the
way of every filter value; so what it asks for is the identifier only where the key is read back as
such, and only for a value that is one value.
-/

namespace DocumentEngine

open Filter

/-- A field of one word is found by its name, whatever the case of the first letter. -/
theorem Schema.resolvePath_of_isWord (s : Schema) {t : DocumentType} {word : String} {f : Field}
    (hfield : t.looseField? (Text.lowerFirst word) = some f) (hword : Text.IsWord word)
    (hdot : '.' ∉ word.toList) : s.resolvePath t word = .ok f.name := by
  have hresolved : s.resolveWords t [word] 1 (Text.lowerFirst word) = .ok [f.name] := by
    unfold Schema.resolveWords
    simp [Schema.fieldName, Text.concat, hfield]
  unfold Schema.resolvePath
  rw [Text.splitAt_of_notMem hdot]
  simp [Schema.resolveParts, Text.camelWords_of_isWord hword, Schema.fieldName, Text.concat,
    hresolved, bind, Except.bind, pure, Except.pure]

/-- The key that the `id` argument stands for is read back as equality of the identifier. -/
structure DocumentType.AsksById (s : Schema) (t : DocumentType) : Prop where
  key : segments (t.identifierName ++ "Equals") = .ok [⟨.and, t.identifierName, .eq⟩]
  path : s.resolvePath t t.identifierName = .ok t.identifierName

namespace Filter

/-- The value that the `id` argument asks for, where it is one value. -/
def idTarget? (v : Json) : Option Json :=
  match splitValues v with
  | [w] => some w
  | _ => none

theorem idTarget?_num (n : Number) : idTarget? (.num n) = some (.num n) := rfl

/-- A text without commas, and without blanks at its ends, is asked for as it is. -/
theorem idTarget?_str {text : String} (hcomma : ',' ∉ text.toList)
    (htrim : Text.trimChars text.toList = text.toList) :
    idTarget? (.str text) = some (.str text) := by
  have hparts : splitValues (.str text) = [.str text] := by
    unfold splitValues Text.splitTrimmed
    dsimp only
    rw [Text.splitChars_of_notMem hcomma, List.map_singleton, List.map_singleton, htrim,
      String.ofList_toList]
  rw [idTarget?, hparts]

/-- What a text asks for is a text. -/
theorem exists_text_of_idTarget? {text : String} {w : Json} (h : idTarget? (.str text) = some w) :
    ∃ part, w = .str part := by
  unfold idTarget? splitValues at h
  dsimp only at h
  split at h
  · rename_i w' hone
    cases h
    obtain ⟨part, -, hpart⟩ := List.mem_map.mp (hone ▸ List.mem_cons_self : w ∈ _)
    exact ⟨part, hpart.symm⟩
  · cases h

/-- A text is asked for as it is exactly where it has no comma and no blanks at its ends. -/
theorem idTarget?_str_iff {text : String} : idTarget? (.str text) = some (.str text) ↔
    ',' ∉ text.toList ∧ Text.trimChars text.toList = text.toList := by
  refine ⟨fun h => ?_, fun h => idTarget?_str h.1 h.2⟩
  unfold idTarget? splitValues Text.splitTrimmed at h
  dsimp only at h
  by_cases hcomma : ',' ∈ text.toList
  · obtain ⟨before, after, hcut⟩ := List.append_of_mem hcomma
    obtain ⟨first, firsts, hbefore⟩ :=
      List.exists_cons_of_ne_nil (Text.splitChars_ne_nil ',' before)
    obtain ⟨next, nexts, hafter⟩ := List.exists_cons_of_ne_nil (Text.splitChars_ne_nil ',' after)
    rw [hcut, Text.splitChars_append, hbefore, hafter] at h
    cases firsts <;> cases h
  · rw [Text.splitChars_of_notMem hcomma] at h
    refine ⟨hcomma, ?_⟩
    have hsame := Json.str.inj (Option.some.inj h)
    rw [← String.toList_inj, String.toList_ofList] at hsame
    exact hsame

theorem assignValues_one (key : String) (segment : Segment) (h : segment.operator.arity = .one)
    (v : Json) :
    (∀ w, idTarget? v = some w →
      assignValues key [segment] (splitValues v) = .ok [.single w]) ∧
    (idTarget? v = none → ∃ cause, assignValues key [segment] (splitValues v) = .error cause) := by
  unfold idTarget? assignValues
  rcases splitValues v with _ | ⟨w, _ | ⟨w', rest⟩⟩
  · refine ⟨fun _ hw => ?_, fun _ => ⟨_, rfl⟩⟩
    cases hw
  · refine ⟨fun w' hw => ?_, fun hnone => ?_⟩
    · cases hw
      simp [takeOperands, takeOperand, h]
    · cases hnone
  · refine ⟨fun _ hw => ?_, fun _ => ?_⟩
    · cases hw
    · rw [List.getLast?_cons_cons, List.getLast?_cons]
      simp [takeOperands, takeOperand, h]

end Filter

namespace Query

variable {s : Schema} {t : DocumentType}

theorem compile_id (s : Schema) (t : DocumentType) (maxLimit : Nat) (v : Json) :
    compile s t maxLimit [("id", v)] =
      (compileKey s t (t.identifierName ++ "Equals") v).map
        fun f => { filter := some f } := by
  have hread : readArguments s t maxLimit {} [] [("id", v)] =
      .ok ({}, [(t.identifierName ++ "Equals", v)]) := by
    simp [readArguments, Keyed.insert]
  unfold compile
  rw [hread]
  cases hkey : compileKey s t (t.identifierName ++ "Equals") v with
  | error cause => simp [compileAll, hkey, bind, Except.bind, Except.map]
  | ok f => simp [compileAll, hkey, Filter.all, bind, Except.bind, pure, Except.pure, Except.map]

/-- The `id` argument is compiled to equality of the identifier with the value that it asks for,
and to nothing where it asks for more than one. -/
theorem compile_asksById (h : t.AsksById s) (maxLimit : Nat) (v : Json) :
    (∀ w, idTarget? v = some w → compile s t maxLimit [("id", v)] =
      .ok { filter := some (.equals t.identifierName w) }) ∧
    (idTarget? v = none → ∃ cause, compile s t maxLimit [("id", v)] = .error cause) := by
  obtain ⟨hone, hmany⟩ := assignValues_one (t.identifierName ++ "Equals")
    ⟨.and, t.identifierName, .eq⟩ rfl v
  have hplaced : misplacedMembership? [⟨.and, t.identifierName, .eq⟩] = none := rfl
  rw [compile_id]
  unfold compileKey
  rw [h.key]
  constructor
  · intro w hw
    simp [hplaced, hone w hw, compileSegment, resolveField, h.path, disjuncts, Filter.all,
      Filter.any, Filter.equals, Except.map, bind, Except.bind, pure, Except.pure]
  · intro hnone
    obtain ⟨cause, hcause⟩ := hmany hnone
    refine ⟨cause, ?_⟩
    simp [hplaced, hcause, Except.map, bind, Except.bind, pure, Except.pure]

/-- An identifier of one word in small letters is asked for by the `id` argument. -/
theorem asksById_of_isWord {f : Field} (hfield : t.field? t.identifierName = some f)
    (hword : Text.IsWord t.identifierName) (hconnector : connector? t.identifierName = none)
    (hdot : '.' ∉ t.identifierName.toList)
    (hlower : Text.lowerFirst t.identifierName = t.identifierName) : t.AsksById s where
  key := by
    have hwords : Text.camelWords (t.identifierName ++ "Equals") =
        [t.identifierName, "Equals"] := by
      rw [Text.camelWords_append hword (by rintro d ⟨⟩; rfl)]
      rfl
    have hlast : readSegments .and [t.identifierName] false ["Equals"] =
        .ok [⟨.and, t.identifierName, .eq⟩] := by
      have hconnector' : connector? "Equals" = none := by decide
      have hequals : operator? ["Equals"] = some .eq := by decide
      rw [readSegments.eq_def]
      simp [hconnector', runOf, hequals, afterRun, readSegments.eq_def, Text.concat, bind,
        Except.bind, pure, Except.pure]
    have hfirst : readSegments .and [] false [t.identifierName, "Equals"] =
        .ok [⟨.and, t.identifierName, .eq⟩] := by
      rw [readSegments.eq_def]
      simp [hconnector, hlast]
    unfold segments
    rw [hwords]
    simp [hfirst, bind, Except.bind, pure, Except.pure]
  path := by
    have hname : f.name = t.identifierName := by
      have := List.find?_some hfield
      simpa using this
    have hloose : t.looseField? (Text.lowerFirst t.identifierName) = some f := by
      rw [hlower, DocumentType.looseField?, hfield]
      rfl
    have hpath := Schema.resolvePath_of_isWord s hloose hword hdot
    rwa [hname] at hpath

end Query

end DocumentEngine
