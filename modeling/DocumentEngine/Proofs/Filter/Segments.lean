import DocumentEngine.Filter.Key
import DocumentEngine.Proofs.Text.Words
import Mathlib.Data.List.Forall2
import Mathlib.Data.List.Induction

/-!
How a filter key is read. Its words are runs of field and operator words with connectors between
them, and each run is one segment: the longest operator at its end, and the words before as the
field. Only a key without words and one that ends with a connector are refused.
-/

namespace DocumentEngine.Filter

/-- Whether a word joins segments. -/
def IsConnector (word : String) : Prop := (connector? word).isSome = true

theorem connector?_eq_none {word : String} (h : ¬IsConnector word) : connector? word = none :=
  Option.not_isSome_iff_eq_none.mp h

/-- A run of words without a connector, behind the connectors in front of it. -/
structure Run where
  connectors : List String
  words : List String

/-- The words of a run with the connectors in front of it. -/
def Run.all (r : Run) : List String := r.connectors ++ r.words

/-- The runs of words. Nothing but connectors stands between two runs, and at least one does, so
that no run goes on. -/
structure Divides (runs : List Run) (words : List String) : Prop where
  whole : runs.flatMap Run.all = words
  connectors : ∀ r ∈ runs, ∀ w ∈ r.connectors, IsConnector w
  nonempty : ∀ r ∈ runs, r.words ≠ []
  words : ∀ r ∈ runs, ∀ w ∈ r.words, ¬IsConnector w
  apart : ∀ r ∈ runs.tail, r.connectors ≠ []

/-- A run cut into a field and the longest words at its end that spell an operator; all of it is the
field where no such words stand behind another. -/
structure Cuts (run field ending : List String) : Prop where
  whole : field ++ ending = run
  nonempty : field ≠ []
  spells : ending = [] ∨ (operator? ending).isSome = true
  longest : ∀ other, other <:+ run → other ≠ run → (operator? other).isSome = true →
    other.length ≤ ending.length

/-- A segment says what a run says: the last connector in front of it, its field and its operator. -/
structure Run.Reads (r : Run) (segment : Segment) : Prop where
  connector : segment.connector = (r.connectors.getLast?.bind connector?).getD .and
  divided : ∃ field ending, Cuts r.words field ending ∧ segment.field = Text.concat field ∧
    segment.operator = (operator? ending).getD .eq

theorem Cuts.length_le {run field ending field' ending' : List String} (h : Cuts run field ending)
    (h' : Cuts run field' ending') : ending.length ≤ ending'.length := by
  rcases h.spells with rfl | hspells
  · exact Nat.zero_le _
  · refine h'.longest ending ⟨field, h.whole⟩ (fun hall => h.nonempty ?_) hspells
    exact List.append_left_eq_self.mp (h.whole.trans hall.symm)

/-- A run is cut in one way. -/
theorem Cuts.unique {run field ending field' ending' : List String} (h : Cuts run field ending)
    (h' : Cuts run field' ending') : field = field' ∧ ending = ending' :=
  List.append_inj' (h.whole.trans h'.whole.symm) (le_antisymm (h.length_le h') (h'.length_le h))

theorem Run.Reads.unique {r : Run} {a b : Segment} (ha : r.Reads a) (hb : r.Reads b) : a = b := by
  obtain ⟨field, ending, hcuts, hfield, hoperator⟩ := ha.divided
  obtain ⟨field', ending', hcuts', hfield', hoperator'⟩ := hb.divided
  obtain ⟨rfl, rfl⟩ := hcuts.unique hcuts'
  obtain ⟨connector, name, operator⟩ := a
  obtain ⟨connector', name', operator'⟩ := b
  have hconnector := ha.connector.trans hb.connector.symm
  dsimp only at hconnector hfield hoperator hfield' hoperator'
  rw [hconnector, hfield, hoperator, hfield', hoperator']

/-! The steps of the reader -/

section

variable {pending c : Connector} {field ws rest : List String} {word : String} {dangling : Bool}

theorem readSegments_nil (hfield : field ≠ []) :
    readSegments pending field dangling [] = .ok [⟨pending, Text.concat field, .eq⟩] := by
  rw [readSegments.eq_def]
  simp [hfield]

/-- A connector closes the field that is open. -/
theorem readSegments_closing (hc : connector? word = some c) (hfield : field ≠ []) :
    readSegments pending field dangling (word :: rest) =
      (readSegments c [] true rest).map (⟨pending, Text.concat field, .eq⟩ :: ·) := by
  rw [readSegments.eq_def]
  simp only [hc, List.isEmpty_iff, hfield, if_false]
  rfl

/-- Of connectors that follow one another the last one counts. -/
theorem readSegments_connector (hc : connector? word = some c) :
    readSegments pending [] dangling (word :: rest) = readSegments c [] true rest := by
  rw [readSegments.eq_def]
  simp only [hc, List.isEmpty_nil, if_true]
  exact bind_pure _

theorem readSegments_first (hword : ¬IsConnector word) :
    readSegments pending [] dangling (word :: rest) = readSegments pending [word] false rest := by
  rw [readSegments.eq_def]
  simp [connector?_eq_none hword]

theorem runOf_append (hws : ∀ w ∈ ws, ¬IsConnector w) (hrest : ∀ w ∈ rest.head?, IsConnector w) :
    runOf (ws ++ rest) = ws ∧ afterRun (ws ++ rest) = rest := by
  have hall : ∀ w ∈ ws, (connector? w).isNone = true := fun w hw =>
    Option.isNone_iff_eq_none.mpr (connector?_eq_none (hws w hw))
  have hends : rest.takeWhile (fun w => (connector? w).isNone) = [] ∧
      rest.dropWhile (fun w => (connector? w).isNone) = rest := by
    cases rest with
    | nil => exact ⟨rfl, rfl⟩
    | cons w rest =>
      have hw : (connector? w).isNone = false := by
        simpa [IsConnector, Option.isSome_iff_ne_none] using hrest w rfl
      exact ⟨List.takeWhile_cons_of_neg (by simp [hw]), List.dropWhile_cons_of_neg (by simp [hw])⟩
  unfold runOf afterRun
  rw [List.takeWhile_append_of_pos hall, List.dropWhile_append_of_pos hall, hends.1, hends.2,
    List.append_nil]
  exact ⟨rfl, rfl⟩

/-- Words that spell an operator up to the end of the run close the field. -/
theorem readSegments_operator {op : Operator} (hword : ¬IsConnector word)
    (hws : ∀ w ∈ ws, ¬IsConnector w) (hrest : ∀ w ∈ rest.head?, IsConnector w)
    (hfield : field ≠ []) (hop : operator? (word :: ws) = some op) :
    readSegments pending field dangling (word :: ws ++ rest) =
      (readSegments pending [] false rest).map (⟨pending, Text.concat field, op⟩ :: ·) := by
  obtain ⟨hrun, hafter⟩ := runOf_append hws hrest
  rw [List.cons_append, readSegments.eq_def]
  simp only [connector?_eq_none hword, List.isEmpty_iff, hfield, if_false, hrun, hafter, hop]
  rfl

/-- A word from which on no operator is spelled goes to the field. -/
theorem readSegments_word (hword : ¬IsConnector word) (hws : ∀ w ∈ ws, ¬IsConnector w)
    (hrest : ∀ w ∈ rest.head?, IsConnector w) (hop : operator? (word :: ws) = none) :
    readSegments pending field dangling (word :: ws ++ rest) =
      readSegments pending (field ++ [word]) false (ws ++ rest) := by
  rw [List.cons_append, readSegments.eq_def]
  simp only [connector?_eq_none hword, (runOf_append hws hrest).1, hop, ite_self]

/-- What is left of a run behind an open field closes the field, with the longest operator at its
end. -/
theorem exists_closed (hws : ∀ w ∈ ws, ¬IsConnector w) (hrest : ∀ w ∈ rest.head?, IsConnector w)
    (hfield : field ≠ []) (pending : Connector) (dangling : Bool) :
    ∃ more ending, more ++ ending = ws ∧ (ending = [] ∨ (operator? ending).isSome = true) ∧
      (∀ other, other <:+ ws → (operator? other).isSome = true → other.length ≤ ending.length) ∧
      readSegments pending field dangling (ws ++ rest) = (readSegments pending [] false rest).map
        (⟨pending, Text.concat (field ++ more), (operator? ending).getD .eq⟩ :: ·) := by
  induction ws generalizing field dangling with
  | nil =>
    refine ⟨[], [], rfl, .inl rfl, fun other hother _ => hother.length_le, ?_⟩
    rw [List.nil_append, List.append_nil]
    cases rest with
    | nil =>
      rw [readSegments_nil hfield, readSegments.eq_def]
      rfl
    | cons word rest =>
      obtain ⟨c, hc⟩ := Option.isSome_iff_exists.mp (hrest word rfl)
      rw [readSegments_closing hc hfield, readSegments_connector hc]
      rfl
  | cons word ws ih =>
    obtain ⟨hword, hws⟩ := List.forall_mem_cons.mp hws
    cases hop : operator? (word :: ws) with
    | some op =>
      refine ⟨[], word :: ws, rfl, .inr (by rw [hop]; rfl), fun other hother _ => hother.length_le,
        ?_⟩
      rw [readSegments_operator hword hws hrest hfield hop, List.append_nil, hop, Option.getD_some]
    | none =>
      obtain ⟨more, ending, hwhole, hspells, hlongest, hread⟩ :=
        ih hws (List.append_ne_nil_of_left_ne_nil hfield [word]) false
      refine ⟨word :: more, ending, by rw [List.cons_append, hwhole], hspells, ?_, ?_⟩
      · intro other hother hspelled
        rcases List.suffix_cons_iff.mp hother with rfl | hother
        · rw [hop] at hspelled
          cases hspelled
        · exact hlongest other hother hspelled
      · rw [readSegments_word hword hws hrest hop, hread, List.append_assoc, List.singleton_append]

end

/-! Runs -/

section

variable {r : Run} {runs : List Run} {rest words trailing : List String} {segs : List Segment}

/-- Behind connectors the last one is pending. -/
theorem readSegments_connectors {cs : List String} (hcs : ∀ w ∈ cs, IsConnector w)
    (pending : Connector) (dangling : Bool) :
    readSegments pending [] dangling (cs ++ rest) =
      readSegments ((cs.getLast?.bind connector?).getD pending) [] (dangling || !cs.isEmpty)
        rest := by
  induction cs using List.reverseRecOn generalizing rest with
  | nil => simp
  | append_singleton cs word ih =>
    obtain ⟨hcs, hword⟩ := List.forall_mem_append.mp hcs
    obtain ⟨c, hc⟩ := Option.isSome_iff_exists.mp (hword word (List.mem_singleton_self word))
    rw [List.append_assoc, List.singleton_append, ih hcs, readSegments_connector hc]
    have hsome : (cs ++ [word]).isEmpty = false := by simp
    simp [hc, hsome]

/-- A run is read as a segment that says what the run says. -/
theorem exists_reads (hconnectors : ∀ w ∈ r.connectors, IsConnector w) (hnonempty : r.words ≠ [])
    (hwords : ∀ w ∈ r.words, ¬IsConnector w) (hrest : ∀ w ∈ rest.head?, IsConnector w)
    {pending : Connector} (hpending : r.connectors = [] → pending = .and) :
    ∃ segment, r.Reads segment ∧ readSegments pending [] false (r.all ++ rest) =
      (readSegments segment.connector [] false rest).map (segment :: ·) := by
  obtain ⟨connectors, words⟩ := r
  dsimp only at hconnectors hnonempty hwords hpending
  obtain ⟨word, ws, rfl⟩ := List.exists_cons_of_ne_nil hnonempty
  obtain ⟨hword, hws⟩ := List.forall_mem_cons.mp hwords
  have hconnector : (connectors.getLast?.bind connector?).getD pending =
      (connectors.getLast?.bind connector?).getD .and := by
    rcases List.eq_nil_or_concat' connectors with rfl | ⟨cs, c, rfl⟩
    · rw [hpending rfl]
    · obtain ⟨_, hc⟩ := Option.isSome_iff_exists.mp (hconnectors c (by simp))
      simp [hc]
  obtain ⟨more, ending, hwhole, hspells, hlongest, hread⟩ := exists_closed hws hrest
    (List.cons_ne_nil word []) ((connectors.getLast?.bind connector?).getD .and) false
  refine ⟨⟨(connectors.getLast?.bind connector?).getD .and, Text.concat ([word] ++ more),
    (operator? ending).getD .eq⟩, ⟨rfl, [word] ++ more, ending, ⟨?_, ?_, hspells, ?_⟩, rfl, rfl⟩, ?_⟩
  · rw [List.append_assoc, hwhole, List.singleton_append]
  · exact List.cons_ne_nil _ _
  · intro other hother hproper hspelled
    exact hlongest other ((List.suffix_cons_iff.mp hother).resolve_left hproper) hspelled
  · rw [Run.all, List.append_assoc, readSegments_connectors hconnectors, hconnector,
      List.cons_append, readSegments_first hword, hread]

theorem Divides.tail (h : Divides (r :: runs) words) : Divides runs (runs.flatMap Run.all) where
  whole := rfl
  connectors := fun r hr => h.connectors r (List.mem_cons_of_mem _ hr)
  nonempty := fun r hr => h.nonempty r (List.mem_cons_of_mem _ hr)
  words := fun r hr => h.words r (List.mem_cons_of_mem _ hr)
  apart := fun r hr => h.apart r (List.mem_of_mem_tail hr)

/-- What stands behind a run begins with a connector. -/
theorem Divides.head_rest (h : Divides (r :: runs) words)
    (htrailing : ∀ w ∈ trailing, IsConnector w) :
    ∀ w ∈ (runs.flatMap Run.all ++ trailing).head?, IsConnector w := by
  intro w hw
  cases runs with
  | nil => exact htrailing w (List.mem_of_mem_head? hw)
  | cons next runs =>
    obtain ⟨c, cs, hcs⟩ := List.exists_cons_of_ne_nil (h.apart next List.mem_cons_self)
    rw [List.flatMap_cons, Run.all, hcs] at hw
    cases hw
    exact h.connectors next (List.mem_cons_of_mem _ List.mem_cons_self) _
      (hcs ▸ List.mem_cons_self)

/-- Runs are read one after the other; connectors behind them are an error. -/
theorem Divides.exists_reads (h : Divides runs words) (htrailing : ∀ w ∈ trailing, IsConnector w)
    (pending : Connector) (hpending : ∀ r ∈ runs.head?, r.connectors = [] → pending = .and) :
    ∃ segs, List.Forall₂ Run.Reads runs segs ∧
      readSegments pending [] false (runs.flatMap Run.all ++ trailing) =
        if trailing = [] then .ok segs else .error .trailingConnector := by
  induction runs generalizing words pending with
  | nil =>
    refine ⟨[], .nil, ?_⟩
    rw [List.flatMap_nil, List.nil_append, ← List.append_nil trailing,
      readSegments_connectors htrailing, readSegments.eq_def]
    by_cases hnil : trailing = []
    · simp [hnil]
    · simp [hnil]
  | cons r runs ih =>
    obtain ⟨segment, hreads, hread⟩ := DocumentEngine.Filter.exists_reads
      (h.connectors r List.mem_cons_self) (h.nonempty r List.mem_cons_self)
      (h.words r List.mem_cons_self) (h.head_rest htrailing) (hpending r rfl)
    obtain ⟨segs, hsegs, hrest⟩ := ih h.tail segment.connector fun next hnext hnone =>
      absurd hnone (h.apart next (List.mem_of_mem_head? hnext))
    refine ⟨segment :: segs, .cons hreads hsegs, ?_⟩
    rw [List.flatMap_cons, List.append_assoc, hread, hrest]
    split <;> rfl

/-- All words are runs, but for connectors at the end. -/
theorem exists_divides (words : List String) : ∃ runs front trailing, Divides runs front ∧
    front ++ trailing = words ∧ ∀ w ∈ trailing, IsConnector w := by
  induction words with
  | nil => exact ⟨[], [], [], ⟨rfl, by simp, by simp, by simp, by simp⟩, rfl, by simp⟩
  | cons word words ih =>
    obtain ⟨runs, front, trailing, h, rfl, htrailing⟩ := ih
    by_cases hword : IsConnector word
    · cases runs with
      | nil =>
        obtain rfl := h.whole
        exact ⟨[], [], word :: trailing, h, rfl, List.forall_mem_cons.mpr ⟨hword, htrailing⟩⟩
      | cons r runs =>
        refine ⟨⟨word :: r.connectors, r.words⟩ :: runs, word :: front, trailing, ?_, rfl, htrailing⟩
        exact {
          whole := by rw [← h.whole]; rfl
          connectors := List.forall_mem_cons.mpr
            ⟨List.forall_mem_cons.mpr ⟨hword, h.connectors r List.mem_cons_self⟩, h.tail.connectors⟩
          nonempty := List.forall_mem_cons.mpr ⟨h.nonempty r List.mem_cons_self, h.tail.nonempty⟩
          words := List.forall_mem_cons.mpr ⟨h.words r List.mem_cons_self, h.tail.words⟩
          apart := h.apart }
    · by_cases hgoes : ∃ r ∈ runs.head?, r.connectors = []
      · -- the word goes on with the first run
        obtain ⟨r, hr, hnone⟩ := hgoes
        obtain ⟨runs, rfl⟩ := List.head?_eq_some_iff.mp hr
        refine ⟨⟨[], word :: r.words⟩ :: runs, word :: front, trailing, ?_, rfl, htrailing⟩
        exact {
          whole := by
            rw [← h.whole, List.flatMap_cons, List.flatMap_cons, Run.all, Run.all, hnone]
            rfl
          connectors := List.forall_mem_cons.mpr ⟨by simp, h.tail.connectors⟩
          nonempty := List.forall_mem_cons.mpr ⟨List.cons_ne_nil _ _, h.tail.nonempty⟩
          words := List.forall_mem_cons.mpr
            ⟨List.forall_mem_cons.mpr ⟨hword, h.words r List.mem_cons_self⟩, h.tail.words⟩
          apart := h.apart }
      · refine ⟨⟨[], [word]⟩ :: runs, word :: front, trailing, ?_, rfl, htrailing⟩
        exact {
          whole := by rw [← h.whole]; rfl
          connectors := List.forall_mem_cons.mpr ⟨by simp, h.connectors⟩
          nonempty := List.forall_mem_cons.mpr ⟨List.cons_ne_nil _ _, h.nonempty⟩
          words := List.forall_mem_cons.mpr ⟨by simpa using hword, h.words⟩
          apart := by
            intro r hr hnone
            cases runs with
            | nil => cases hr
            | cons first runs =>
              rcases List.mem_cons.mp hr with rfl | hr
              · exact hgoes ⟨r, rfl, hnone⟩
              · exact h.apart r hr hnone }

/-- Runs end with a word of a run. -/
theorem Divides.not_isConnector_last (h : Divides runs words) :
    ∀ w ∈ words.getLast?, ¬IsConnector w := by
  intro w hw
  rw [← h.whole] at hw
  rcases List.eq_nil_or_concat' runs with rfl | ⟨before, r, rfl⟩
  · cases hw
  · have hr : r ∈ before ++ [r] := List.mem_append_right _ (List.mem_singleton_self r)
    rw [List.flatMap_append, List.flatMap_singleton, Run.all, ← List.append_assoc,
      List.getLast?_append_of_ne_nil _ (h.nonempty r hr)] at hw
    exact h.words r hr w (List.mem_of_mem_getLast? hw)

theorem Divides.runs_eq_nil_iff (h : Divides runs words) : runs = [] ↔ words = [] := by
  rw [← h.whole]
  constructor
  · rintro rfl
    rfl
  · intro hnil
    cases runs with
    | nil => rfl
    | cons r runs =>
      rw [List.flatMap_cons, Run.all, List.append_assoc, List.append_eq_nil_iff,
        List.append_eq_nil_iff] at hnil
      exact absurd hnil.2.1 (h.nonempty r List.mem_cons_self)

/-- A key of runs is read as a segment for each of them, unless connectors stand behind them. -/
theorem exists_segments {key : String} (h : Divides runs words)
    (htrailing : ∀ w ∈ trailing, IsConnector w) (hkey : words ++ trailing = Text.camelWords key)
    (hsome : Text.camelWords key ≠ []) :
    ∃ segs, List.Forall₂ Run.Reads runs segs ∧
      segments key = if trailing = [] then .ok segs else .error .trailingConnector := by
  obtain ⟨segs, hreads, hread⟩ := h.exists_reads htrailing .and fun _ _ _ => rfl
  rw [h.whole, hkey] at hread
  refine ⟨segs, hreads, ?_⟩
  unfold segments
  dsimp only
  rw [hread, if_neg (by simpa using hsome)]
  by_cases hnil : trailing = []
  · have hsegs : segs ≠ [] := by
      rintro rfl
      obtain rfl := List.forall₂_nil_right_iff.mp hreads
      rw [← hkey, hnil, List.append_nil, h.runs_eq_nil_iff.mp rfl] at hsome
      exact hsome rfl
    rw [if_pos hnil]
    simp [hsegs, bind, Except.bind, pure, Except.pure]
  · rw [if_neg hnil]
    rfl

theorem segments_of_divides {key : String} (hne : runs ≠ [])
    (h : Divides runs (Text.camelWords key)) (hreads : List.Forall₂ Run.Reads runs segs) :
    segments key = .ok segs := by
  obtain ⟨segs', hreads', hread⟩ := exists_segments h (List.forall_mem_nil IsConnector)
    (List.append_nil _) fun hnil => hne (h.runs_eq_nil_iff.mpr hnil)
  have hunique : Relator.RightUnique Run.Reads := fun _ _ _ ha hb => ha.unique hb
  rw [hread, if_pos rfl, List.right_unique_forall₂' hunique hreads hreads']

/-- A key has no words, or its words are runs and it is read as their segments, or it ends with a
connector. -/
theorem segments_cases (key : String) :
    (Text.camelWords key = [] ∧ segments key = .error .empty) ∨
    (∃ runs segs, runs ≠ [] ∧ Divides runs (Text.camelWords key) ∧
      List.Forall₂ Run.Reads runs segs ∧ segments key = .ok segs) ∨
    ((∃ word ∈ (Text.camelWords key).getLast?, IsConnector word) ∧
      segments key = .error .trailingConnector) := by
  by_cases hnil : Text.camelWords key = []
  · refine .inl ⟨hnil, ?_⟩
    unfold segments
    rw [hnil]
    rfl
  · obtain ⟨runs, front, trailing, hruns, hwhole, htrailing⟩ := exists_divides (Text.camelWords key)
    obtain ⟨segs, hreads, hread⟩ := exists_segments hruns htrailing hwhole hnil
    right
    rcases List.eq_nil_or_concat' trailing with rfl | ⟨before, word, rfl⟩
    · rw [List.append_nil] at hwhole
      subst hwhole
      exact .inl ⟨runs, segs, fun h => hnil (hruns.runs_eq_nil_iff.mp h), hruns, hreads, hread⟩
    · refine .inr ⟨⟨word, ?_, htrailing word (by simp)⟩, by rw [hread, if_neg (by simp)]⟩
      rw [← hwhole, ← List.append_assoc, List.getLast?_concat]
      rfl

/-- A key is refused exactly where it has no words or ends with a connector. Otherwise its words are
read as one segment for each run. -/
theorem segments_reads (key : String) :
    (∀ words, Text.IsCut key words ↔ words = Text.camelWords key) ∧
    (∀ fault, segments key = .error fault ↔
      (Text.camelWords key = [] ∧ fault = .empty) ∨
      ((∃ word ∈ (Text.camelWords key).getLast?, IsConnector word) ∧ fault = .trailingConnector)) ∧
    ∀ segs, segments key = .ok segs ↔ ∃ runs, runs ≠ [] ∧ Divides runs (Text.camelWords key) ∧
      List.Forall₂ Run.Reads runs segs := by
  refine ⟨fun words => Text.isCut_iff, fun fault => ?_, fun segs => ?_⟩
  · rcases segments_cases key with
      ⟨hnil, hread⟩ | ⟨runs, segs, hne, hruns, -, hread⟩ | ⟨hlast, hread⟩
    · rw [hread, hnil]
      simp [eq_comm]
    · have hnil : Text.camelWords key ≠ [] := fun h => hne (hruns.runs_eq_nil_iff.mpr h)
      have hlast : ¬∃ word ∈ (Text.camelWords key).getLast?, IsConnector word :=
        fun ⟨word, hword, h⟩ => hruns.not_isConnector_last word hword h
      simp only [hread, hnil, hlast, false_and, or_self, reduceCtorEq]
    · have hnil : Text.camelWords key ≠ [] := by
        rintro hnil
        simp [hnil] at hlast
      simp only [hread, hnil, hlast, false_and, false_or, true_and, Except.error.injEq]
      exact eq_comm
  · constructor
    · intro h
      rcases segments_cases key with
        ⟨-, hread⟩ | ⟨runs, segs', hne, hruns, hreads, hread⟩ | ⟨-, hread⟩
      · rw [hread] at h
        cases h
      · rw [hread] at h
        cases h
        exact ⟨runs, hne, hruns, hreads⟩
      · rw [hread] at h
        cases h
    · rintro ⟨runs, hne, hruns, hreads⟩
      exact segments_of_divides hne hruns hreads

end

end DocumentEngine.Filter
