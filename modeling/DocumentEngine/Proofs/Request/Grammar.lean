import DocumentEngine.Proofs.Json.Depth
import DocumentEngine.Proofs.Request.Layout
import DocumentEngine.Request.Basic

/-!
The grammar of requests: which tokens spell a request, and how deep its selection sets, lists and
objects are nested there. What is spelled is a request in order, nested no deeper than the tokens; and
every request in order is spelled by tokens that are nested no deeper than itself.
-/

namespace DocumentEngine

namespace Request

/-- The tokens of keys: a name, or where it may be a string also a string. -/
inductive KeySpelled : Bool → String → Token → Prop where
  | name (quoted : Bool) (key : String) : KeySpelled quoted key (.name key)
  | string (key : String) : KeySpelled true key (.string key)

/-- A part of a request below its fields: a value, the items of a list, or members with their keys,
which in objects may be quoted. -/
inductive Phrase where
  | value (v : Json)
  | items (vs : List Json)
  | members (quoted : Bool) (ms : List (String × Json))

/-- The tokens of a part of a request, and how deep lists and objects are nested in them. Of two members
of an object with one key the last counts. -/
inductive Phrase.Spelled : Phrase → Nat → List Token → Prop where
  | null : Spelled (.value .null) 0 [.name "null"]
  | bool (b : Bool) : Spelled (.value (.bool b)) 0 [.name (if b then "true" else "false")]
  | word {w : String} (h : w ∉ ["true", "false", "null"]) : Spelled (.value (.str w)) 0 [.name w]
  | string (s : String) : Spelled (.value (.str s)) 0 [.string s]
  | number (n : Number) : Spelled (.value (.num n)) 0 [.number n]
  | list {vs : List Json} {d : Nat} {ts : List Token} (h : Spelled (.items vs) d ts) :
      Spelled (.value (.arr vs)) (d + 1) (.mark '[' :: (ts ++ [.mark ']']))
  | object {ms : List (String × Json)} {d : Nat} {ts : List Token}
      (h : Spelled (.members true ms) d ts) :
      Spelled (.value (.obj (Keyed.ofList ms))) (d + 1) (.mark '\x7b' :: (ts ++ [.mark '\x7d']))
  | noItem : Spelled (.items []) 0 []
  | item {v : Json} {vs : List Json} {d e : Nat} {ts us : List Token} (h : Spelled (.value v) d ts)
      (hrest : Spelled (.items vs) e us) : Spelled (.items (v :: vs)) (max d e) (ts ++ us)
  | noMember (quoted : Bool) : Spelled (.members quoted []) 0 []
  | member {quoted : Bool} {key : String} {token : Token} {v : Json} {ms : List (String × Json)}
      {d e : Nat} {ts us : List Token} (hkey : KeySpelled quoted key token)
      (h : Spelled (.value v) d ts) (hrest : Spelled (.members quoted ms) e us) :
      Spelled (.members quoted ((key, v) :: ms)) (max d e) (token :: .mark ':' :: (ts ++ us))

/-- The tokens of the name of a field, with a label before it or without. -/
inductive NameSpelled : Option String → String → List Token → Prop where
  | plain (name : String) : NameSpelled none name [.name name]
  | labelled (label name : String) :
      NameSpelled (some label) name [.name label, .mark ':', .name name]

/-- The tokens of arguments; where there are none the parentheses may be left out. -/
inductive ArgumentsSpelled : Keyed Json → Nat → List Token → Prop where
  | none : ArgumentsSpelled [] 0 []
  | some {ms : List (String × Json)} {d : Nat} {ts : List Token}
      (h : (Phrase.members false ms).Spelled d ts) :
      ArgumentsSpelled (Keyed.ofList ms) d (.mark '(' :: (ts ++ [.mark ')']))

/-- The tokens of selected fields, and how deep selection sets, lists and objects are nested in them. -/
inductive SelectionsSpelled : List Selection → Nat → List Token → Prop where
  | nil : SelectionsSpelled [] 0 []
  | leaf {label : Option String} {name : String} {arguments : Keyed Json}
      {selections : List Selection} {d e : Nat} {names args ts : List Token}
      (hname : NameSpelled label name names) (hargs : ArgumentsSpelled arguments d args)
      (h : SelectionsSpelled selections e ts) :
      SelectionsSpelled (.field label name arguments [] :: selections) (max d e)
        (names ++ (args ++ ts))
  | branch {label : Option String} {name : String} {arguments : Keyed Json}
      {below selections : List Selection} {d e f : Nat} {names args inner ts : List Token}
      (hname : NameSpelled label name names) (hargs : ArgumentsSpelled arguments d args)
      (hbelow : SelectionsSpelled below f inner) (h : SelectionsSpelled selections e ts) :
      SelectionsSpelled (.field label name arguments below :: selections) (max d (max (f + 1) e))
        (names ++ (args ++ .mark '\x7b' :: (inner ++ .mark '\x7d' :: ts)))

/-- The tokens before the braces of a request: none for a query without a name, else the kind and
perhaps a name. -/
inductive HeadSpelled : RequestKind → Option String → List Token → Prop where
  | bare : HeadSpelled .query none []
  | kind (kind : RequestKind) : HeadSpelled kind none [.name kind.name]
  | named (kind : RequestKind) (name : String) :
      HeadSpelled kind (some name) [.name kind.name, .name name]

/-- The tokens of a request and how deep they are nested. -/
inductive Spelled : Request → Nat → List Token → Prop where
  | intro {kind : RequestKind} {name : Option String} {selections : List Selection} {d : Nat}
      {head ts : List Token} (hhead : HeadSpelled kind name head)
      (h : SelectionsSpelled selections d ts) (hne : selections ≠ []) :
      Spelled ⟨kind, name, selections⟩ (d + 1) (head ++ .mark '\x7b' :: (ts ++ [.mark '\x7d']))

/-- A text that shows a request, laid out in any way, and how deep it is nested there. -/
def Renders (request : Request) (depth : Nat) (text : String) : Prop :=
  ∃ tokens, request.Spelled depth tokens ∧ Laid tokens text.toList

/-- A value that an argument can have: its integers fit 64 bits with a sign, and the keys of its
objects stand in order. -/
inductive IsValue : Json → Prop where
  | null : IsValue .null
  | bool (b : Bool) : IsValue (.bool b)
  | num {n : Number} (h : n.IsSigned) : IsValue (.num n)
  | str (s : String) : IsValue (.str s)
  | arr {items : List Json} (h : ∀ v ∈ items, IsValue v) : IsValue (.arr items)
  | obj {members : Keyed Json} (hkeys : members.Ascending)
      (h : ∀ entry ∈ members, IsValue entry.2) : IsValue (.obj members)

/-- Arguments under names that stand in order. -/
structure IsArguments (arguments : Keyed Json) : Prop where
  keys : arguments.Ascending
  names : ∀ entry ∈ arguments, IsIdentifier entry.1
  values : ∀ entry ∈ arguments, IsValue entry.2

/-- A field with names and arguments in order, and such fields below. -/
inductive IsField : Selection → Prop where
  | field {label : Option String} {name : String} {arguments : Keyed Json} {below : List Selection}
      (hlabel : ∀ l ∈ label, IsIdentifier l) (hname : IsIdentifier name)
      (hargs : IsArguments arguments) (hbelow : ∀ s ∈ below, IsField s) :
      IsField (.field label name arguments below)

/-- A request in order, with one field at least. -/
structure WellFormed (request : Request) : Prop where
  name : ∀ n ∈ request.name, IsIdentifier n
  fields : ∀ s ∈ request.selections, IsField s
  nonempty : request.selections ≠ []

mutual

/-- How deep selection sets, lists and objects are nested below a field. -/
def nesting : Selection → Nat
  | .field _ _ arguments below =>
    max (Json.depthOfMembers arguments) (if below.isEmpty then 0 else nestingOf below + 1)

/-- The greatest nesting below fields. -/
def nestingOf : List Selection → Nat
  | [] => 0
  | s :: ss => max (nesting s) (nestingOf ss)

end

/-- How deep selection sets, lists and objects are nested in a request. -/
def depth (request : Request) : Nat := nestingOf request.selections + 1

variable {d : Nat} {tokens : List Token}

theorem nestingOf_le_iff {selections : List Selection} :
    nestingOf selections ≤ d ↔ ∀ s ∈ selections, nesting s ≤ d := by
  induction selections with
  | nil => simp [nestingOf]
  | cons s ss ih => rw [nestingOf, max_le_iff, ih, List.forall_mem_cons]

/-- What is said of a part of a request whose tokens have texts: its values are in order, and nested no
deeper than the tokens. -/
def Phrase.InOrder (d : Nat) : Phrase → Prop
  | .value v => IsValue v ∧ v.depth ≤ d
  | .items vs => ∀ v ∈ vs, IsValue v ∧ v.depth ≤ d
  | .members quoted ms =>
    ∀ entry ∈ ms, IsValue entry.2 ∧ entry.2.depth ≤ d ∧ (quoted = false → IsIdentifier entry.1)

/-- Of members that are in order no collected one is not. -/
theorem Phrase.InOrder.ofList {quoted : Bool} {ms : List (String × Json)}
    (h : (Phrase.members quoted ms).InOrder d) :
    (Phrase.members quoted (Keyed.ofList ms)).InOrder d :=
  fun entry hentry => h entry ((Keyed.mem_union hentry).resolve_left List.not_mem_nil)

theorem Phrase.Spelled.inOrder {phrase : Phrase} (h : phrase.Spelled d tokens)
    (htexts : ∀ token ∈ tokens, token.IsSpelled) : phrase.InOrder d := by
  induction h with
  | null => exact ⟨.null, le_rfl⟩
  | bool b => exact ⟨.bool b, le_rfl⟩
  | word => exact ⟨.str _, le_rfl⟩
  | string s => exact ⟨.str s, le_rfl⟩
  | number n =>
    exact ⟨.num (Token.isSpelled_number_iff.mp (htexts _ List.mem_cons_self)), le_rfl⟩
  | list _ ih =>
    simp only [List.forall_mem_cons, List.forall_mem_append] at htexts
    have hitems := ih htexts.2.1
    exact ⟨.arr fun v hv => (hitems v hv).1, Json.depth_arr_le_iff.mpr fun v hv => (hitems v hv).2⟩
  | object _ ih =>
    simp only [List.forall_mem_cons, List.forall_mem_append] at htexts
    have hmembers := (ih htexts.2.1).ofList
    exact ⟨.obj (Keyed.ascending_union .nil _) fun entry hentry => (hmembers entry hentry).1,
      Json.depth_obj_le_iff.mpr fun entry hentry => (hmembers entry hentry).2.1⟩
  | noItem => exact fun _ hv => absurd hv List.not_mem_nil
  | item _ _ ih ihrest =>
    rw [List.forall_mem_append] at htexts
    obtain ⟨hv, hdepth⟩ := ih htexts.1
    refine List.forall_mem_cons.mpr ⟨⟨hv, hdepth.trans (le_max_left _ _)⟩, fun w hw => ?_⟩
    obtain ⟨hw, hdepth⟩ := ihrest htexts.2 w hw
    exact ⟨hw, hdepth.trans (le_max_right _ _)⟩
  | noMember => exact fun _ hentry => absurd hentry List.not_mem_nil
  | member hkey _ _ ih ihrest =>
    simp only [List.forall_mem_cons, List.forall_mem_append] at htexts
    obtain ⟨hv, hdepth⟩ := ih htexts.2.2.1
    refine List.forall_mem_cons.mpr ⟨⟨hv, hdepth.trans (le_max_left _ _), ?_⟩, fun entry hentry => ?_⟩
    · rintro rfl
      cases hkey with
      | name => exact Token.isSpelled_name_iff.mp htexts.1
    · obtain ⟨hw, hdepth, hname⟩ := ihrest htexts.2.2.2 entry hentry
      exact ⟨hw, hdepth.trans (le_max_right _ _), hname⟩

theorem ArgumentsSpelled.inOrder {arguments : Keyed Json} (h : ArgumentsSpelled arguments d tokens)
    (htexts : ∀ token ∈ tokens, token.IsSpelled) :
    IsArguments arguments ∧ Json.depthOfMembers arguments ≤ d := by
  cases h with
  | none => exact ⟨⟨.nil, by simp, by simp⟩, le_rfl⟩
  | some h =>
    simp only [List.forall_mem_cons, List.forall_mem_append] at htexts
    have hmembers := (h.inOrder htexts.2.1).ofList
    exact ⟨⟨Keyed.ascending_union .nil _, fun entry hentry => (hmembers entry hentry).2.2 rfl,
        fun entry hentry => (hmembers entry hentry).1⟩,
      Json.depthOfMembers_le_iff.mpr fun entry hentry => (hmembers entry hentry).2.1⟩

theorem NameSpelled.inOrder {label : Option String} {name : String} (h : NameSpelled label name tokens)
    (htexts : ∀ token ∈ tokens, token.IsSpelled) :
    (∀ l ∈ label, IsIdentifier l) ∧ IsIdentifier name := by
  cases h with
  | plain =>
    exact ⟨by simp, Token.isSpelled_name_iff.mp (htexts _ List.mem_cons_self)⟩
  | labelled =>
    simp only [List.forall_mem_cons] at htexts
    refine ⟨?_, Token.isSpelled_name_iff.mp htexts.2.2.1⟩
    rintro l ⟨⟩
    exact Token.isSpelled_name_iff.mp htexts.1

/-- Fields that are spelled are in order, and nested no deeper than the tokens. -/
theorem SelectionsSpelled.inOrder {selections : List Selection}
    (h : SelectionsSpelled selections d tokens) (htexts : ∀ token ∈ tokens, token.IsSpelled) :
    ∀ s ∈ selections, IsField s ∧ nesting s ≤ d := by
  induction h with
  | nil => exact fun _ hs => absurd hs List.not_mem_nil
  | leaf hname hargs _ ih =>
    simp only [List.forall_mem_append] at htexts
    obtain ⟨hlabel, hname⟩ := hname.inOrder htexts.1
    obtain ⟨hargs, hdepth⟩ := hargs.inOrder htexts.2.1
    refine List.forall_mem_cons.mpr ⟨⟨.field hlabel hname hargs (by simp), ?_⟩, fun s hs => ?_⟩
    · rw [nesting]
      simpa using Or.inl hdepth
    · obtain ⟨hs, hdepth⟩ := ih htexts.2.2 s hs
      exact ⟨hs, hdepth.trans (le_max_right _ _)⟩
  | branch hname hargs _ _ ihbelow ih =>
    simp only [List.forall_mem_append, List.forall_mem_cons] at htexts
    obtain ⟨hlabel, hname⟩ := hname.inOrder htexts.1
    obtain ⟨hargs, hdepth⟩ := hargs.inOrder htexts.2.1
    have hbelow := ihbelow htexts.2.2.2.1
    refine List.forall_mem_cons.mpr
      ⟨⟨.field hlabel hname hargs fun s hs => (hbelow s hs).1, ?_⟩, fun s hs => ?_⟩
    · have hinner := nestingOf_le_iff.mpr fun s hs => (hbelow s hs).2
      rw [nesting]
      split <;> omega
    · obtain ⟨hs, hdepth⟩ := ih htexts.2.2.2.2.2 s hs
      exact ⟨hs, hdepth.trans (by omega)⟩

/-- What a text shows is a request in order, nested no deeper than the text. -/
theorem Renders.inOrder {request : Request} {text : String} (h : request.Renders d text) :
    request.WellFormed ∧ request.depth ≤ d := by
  obtain ⟨_, ⟨hhead, hselections, hne⟩, hlaid⟩ := h
  have htexts := hlaid.isSpelled
  simp only [List.forall_mem_append, List.forall_mem_cons] at htexts
  have hfields := hselections.inOrder htexts.2.2.1
  refine ⟨⟨?_, fun s hs => (hfields s hs).1, hne⟩,
    Nat.succ_le_succ (nestingOf_le_iff.mpr fun s hs => (hfields s hs).2)⟩
  cases hhead with
  | bare => simp
  | kind => simp
  | named =>
    rintro n ⟨⟩
    exact Token.isSpelled_name_iff.mp (htexts.1 _ (by simp))

/-- A part of a request that some tokens with texts spell, nested to a depth. -/
def Phrase.Spellable (phrase : Phrase) (d : Nat) : Prop :=
  ∃ tokens, phrase.Spelled d tokens ∧ ∀ token ∈ tokens, token.IsSpelled

theorem spellable_items {vs : List Json} (h : ∀ v ∈ vs, (Phrase.value v).Spellable v.depth) :
    (Phrase.items vs).Spellable (Json.depthOfItems vs) := by
  induction vs with
  | nil => exact ⟨[], .noItem, by simp⟩
  | cons v vs ih =>
    obtain ⟨⟨ts, hts, htexts⟩, hrest⟩ := List.forall_mem_cons.mp h
    obtain ⟨us, hus, hutexts⟩ := ih hrest
    exact ⟨ts ++ us, .item hts hus, List.forall_mem_append.mpr ⟨htexts, hutexts⟩⟩

theorem spellable_members {quoted : Bool} {ms : List (String × Json)}
    (hkeys : quoted = false → ∀ entry ∈ ms, IsIdentifier entry.1)
    (h : ∀ entry ∈ ms, (Phrase.value entry.2).Spellable entry.2.depth) :
    (Phrase.members quoted ms).Spellable (Json.depthOfMembers ms) := by
  induction ms with
  | nil => exact ⟨[], .noMember quoted, by simp⟩
  | cons entry ms ih =>
    obtain ⟨key, v⟩ := entry
    obtain ⟨⟨ts, hts, htexts⟩, hrest⟩ := List.forall_mem_cons.mp h
    obtain ⟨us, hus, hutexts⟩ :=
      ih (fun hq other hother => hkeys hq other (List.mem_cons_of_mem _ hother)) hrest
    have hkey : ∃ token, KeySpelled quoted key token ∧ token.IsSpelled := by
      cases quoted with
      | true => exact ⟨_, .string key, Token.isSpelled_string key⟩
      | false =>
        exact ⟨_, .name false key, Token.isSpelled_name_iff.mpr (hkeys rfl _ List.mem_cons_self)⟩
    obtain ⟨token, hkey, htext⟩ := hkey
    refine ⟨_, .member hkey hts hus, ?_⟩
    simp only [List.forall_mem_cons, List.forall_mem_append]
    exact ⟨htext, Token.isSpelled_mark rfl, htexts, hutexts⟩

theorem isIdentifier_word {word : String} (h : word ∈ ["true", "false", "null", "query", "mutation"]) :
    IsIdentifier word := by
  have hall : ∀ word ∈ ["true", "false", "null", "query", "mutation"],
      (word.toList.head?.any startsName && word.toList.tail.all continuesName) = true := by
    decide +kernel
  have hword := hall word h
  cases hcs : word.toList with
  | nil =>
    rw [hcs] at hword
    cases hword
  | cons c cs =>
    rw [hcs, Bool.and_eq_true, List.all_eq_true] at hword
    exact ⟨c, cs, hcs, hword⟩

theorem isSpelled_enclosed {first last : Char} (hfirst : isMark first = true)
    (hlast : isMark last = true) (h : ∀ token ∈ tokens, token.IsSpelled) :
    ∀ token ∈ .mark first :: (tokens ++ [.mark last]), token.IsSpelled := by
  simp only [List.forall_mem_cons, List.forall_mem_append]
  exact ⟨Token.isSpelled_mark hfirst, h, Token.isSpelled_mark hlast, by simp⟩

/-- A value in order can be written, nested as deep as it is. -/
theorem IsValue.spellable {v : Json} (h : IsValue v) : (Phrase.value v).Spellable v.depth := by
  induction h with
  | null =>
    refine ⟨_, .null, ?_⟩
    simpa using Token.isSpelled_name_iff.mpr (isIdentifier_word (by simp))
  | bool b =>
    refine ⟨_, .bool b, ?_⟩
    simpa using Token.isSpelled_name_iff.mpr (isIdentifier_word (by cases b <;> simp))
  | num h => exact ⟨_, .number _, by simpa using Token.isSpelled_number_iff.mpr h⟩
  | str s => exact ⟨_, .string s, by simpa using Token.isSpelled_string s⟩
  | arr _ ih =>
    obtain ⟨ts, hts, htexts⟩ := spellable_items ih
    exact ⟨_, .list hts, isSpelled_enclosed rfl rfl htexts⟩
  | obj hkeys _ ih =>
    have hmembers : (Phrase.members true _).Spellable _ := spellable_members (by simp) ih
    obtain ⟨ts, hts, htexts⟩ := hmembers
    have hobject := Phrase.Spelled.object hts
    rw [Keyed.ofList_of_ascending hkeys] at hobject
    exact ⟨_, hobject, isSpelled_enclosed rfl rfl htexts⟩

theorem IsArguments.spellable {arguments : Keyed Json} (h : IsArguments arguments) :
    ∃ ts, ArgumentsSpelled arguments (Json.depthOfMembers arguments) ts ∧
      ∀ token ∈ ts, token.IsSpelled := by
  obtain ⟨ts, hts, htexts⟩ := spellable_members (fun _ => h.names) fun entry hentry =>
    (h.values entry hentry).spellable
  have harguments := ArgumentsSpelled.some hts
  rw [Keyed.ofList_of_ascending h.keys] at harguments
  exact ⟨_, harguments, isSpelled_enclosed rfl rfl htexts⟩

theorem exists_nameSpelled {label : Option String} {name : String}
    (hlabel : ∀ l ∈ label, IsIdentifier l) (hname : IsIdentifier name) :
    ∃ ts, NameSpelled label name ts ∧ ∀ token ∈ ts, token.IsSpelled := by
  have htext := Token.isSpelled_name_iff.mpr hname
  cases label with
  | none => exact ⟨_, .plain name, by simpa using htext⟩
  | some label =>
    refine ⟨_, .labelled label name, ?_⟩
    simp only [List.forall_mem_cons]
    exact ⟨Token.isSpelled_name_iff.mpr (hlabel label rfl), Token.isSpelled_mark rfl, htext, by simp⟩

theorem SelectionsSpelled.append {first second : List Selection} {e : Nat} {us : List Token}
    (h : SelectionsSpelled first d tokens) (hsecond : SelectionsSpelled second e us) :
    SelectionsSpelled (first ++ second) (max d e) (tokens ++ us) := by
  induction h with
  | nil => simpa using hsecond
  | leaf hname hargs _ ih => simpa [Nat.max_assoc] using SelectionsSpelled.leaf hname hargs ih
  | branch hname hargs hbelow _ _ ih =>
    simpa [Nat.max_assoc] using SelectionsSpelled.branch hname hargs hbelow ih

/-- Fields that some tokens with texts spell, nested to a depth. -/
def Spellable (selections : List Selection) (d : Nat) : Prop :=
  ∃ ts, SelectionsSpelled selections d ts ∧ ∀ token ∈ ts, token.IsSpelled

theorem spellable_fields {selections : List Selection}
    (h : ∀ s ∈ selections, Spellable [s] (nesting s)) :
    Spellable selections (nestingOf selections) := by
  induction selections with
  | nil => exact ⟨[], .nil, by simp⟩
  | cons s ss ih =>
    obtain ⟨⟨ts, hts, htexts⟩, hrest⟩ := List.forall_mem_cons.mp h
    obtain ⟨us, hus, hutexts⟩ := ih hrest
    exact ⟨ts ++ us, hts.append hus, List.forall_mem_append.mpr ⟨htexts, hutexts⟩⟩

/-- A field in order can be written, nested as deep as it is. -/
theorem IsField.spellable {s : Selection} (h : IsField s) : Spellable [s] (nesting s) := by
  induction h with
  | @field label name arguments below hlabel hname hargs _ ih =>
    obtain ⟨names, hnames, hntexts⟩ := exists_nameSpelled hlabel hname
    obtain ⟨args, hargs, hatexts⟩ := hargs.spellable
    cases below with
    | nil =>
      have hleaf := SelectionsSpelled.leaf hnames hargs .nil
      rw [List.append_nil] at hleaf
      exact ⟨_, hleaf, List.forall_mem_append.mpr ⟨hntexts, hatexts⟩⟩
    | cons inner others =>
      obtain ⟨ts, hts, htexts⟩ := spellable_fields ih
      have hbranch := SelectionsSpelled.branch hnames hargs hts .nil
      refine ⟨_, hbranch, List.forall_mem_append.mpr ⟨hntexts,
        List.forall_mem_append.mpr ⟨hatexts, isSpelled_enclosed rfl rfl htexts⟩⟩⟩

theorem exists_headSpelled (kind : RequestKind) {name : Option String}
    (h : ∀ n ∈ name, IsIdentifier n) :
    ∃ head, HeadSpelled kind name head ∧ ∀ token ∈ head, token.IsSpelled := by
  have hkind : (Token.name kind.name).IsSpelled :=
    Token.isSpelled_name_iff.mpr (isIdentifier_word (by cases kind <;> simp [RequestKind.name]))
  cases name with
  | none => exact ⟨_, .kind kind, by simpa using hkind⟩
  | some name =>
    refine ⟨_, .named kind name, ?_⟩
    simpa using ⟨hkind, Token.isSpelled_name_iff.mpr (h name rfl)⟩

/-- A request in order can be written, nested as deep as it is. -/
theorem WellFormed.exists_renders {request : Request} (h : request.WellFormed) :
    ∃ text, request.Renders request.depth text := by
  obtain ⟨kind, name, selections⟩ := request
  obtain ⟨head, hhead, hhtexts⟩ := exists_headSpelled kind h.name
  obtain ⟨ts, hts, htexts⟩ := spellable_fields fun s hs => (h.fields s hs).spellable
  have hbody : ∀ token ∈ Token.mark '\x7b' :: (ts ++ [.mark '\x7d']), token.IsSpelled :=
    isSpelled_enclosed rfl rfl htexts
  obtain ⟨cs, hcs⟩ := exists_laid (List.forall_mem_append.mpr ⟨hhtexts, hbody⟩)
  exact ⟨String.ofList cs, _, .intro hhead hts h.nonempty, by rwa [String.toList_ofList]⟩

end Request

end DocumentEngine
