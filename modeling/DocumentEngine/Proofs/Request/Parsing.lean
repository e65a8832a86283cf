import DocumentEngine.Proofs.Request.Grammar
import DocumentEngine.Request.Reader

/-!
Reading tokens is reading the grammar. Tokens that spell something are read as that where they are
nested no deeper than is left, and are refused as too deep else, whatever stands behind them; and what
is read is spelled by the tokens that are gone.
-/

namespace DocumentEngine

namespace Request

variable {α β : Type} {a : α} {b : β} {d e depth fuel : Nat} {tokens rest : List Token}

/-- What is read of something nested to a depth, where a depth is left. -/
def outcome (d depth : Nat) (a : α) : Except SyntaxFault α :=
  if d ≤ depth then .ok a else .error .tooDeep

theorem outcome_zero : outcome 0 depth a = .ok a := if_pos (Nat.zero_le depth)

theorem bind_of_ok {read : Except SyntaxFault α} {f : α → Except SyntaxFault β} (h : read = .ok a) :
    (read >>= f) = f a := by
  rw [h]
  rfl

/-- What comes behind something is read where that is; both together are nested as deep as the deeper of
the two. -/
theorem bind_eq_outcome {read : Except SyntaxFault α} {f : α → Except SyntaxFault β}
    (hread : read = outcome d depth a) (h : f a = outcome e depth b) :
    (read >>= f) = outcome (max d e) depth b := by
  subst hread
  unfold outcome
  by_cases hd : d ≤ depth
  · rw [if_pos hd, bind_of_ok rfl, h, outcome]
    simp [hd]
  · rw [if_neg hd, if_neg (by omega)]
    rfl

theorem map_eq_outcome {read : Except SyntaxFault α} {f : α → Except SyntaxFault β}
    (hread : read = outcome d depth a) (h : f a = .ok b) : (read >>= f) = outcome d depth b := by
  have hall := bind_eq_outcome (e := 0) hread (h.trans outcome_zero.symm)
  rwa [Nat.max_zero] at hall

/-- One level further down, one level less is left. -/
theorem descend_eq_outcome {f : Nat → Except SyntaxFault α}
    (h : ∀ inner, f inner = outcome d inner a) : (descend depth >>= f) = outcome (d + 1) depth a := by
  cases depth with
  | zero => rfl
  | succ inner =>
    change f inner = _
    rw [h]
    simp [outcome]

/-- How a part of a request is read whose tokens are nested to a depth: as itself where that depth is
left, whatever stands behind. -/
def Phrase.Reads (d : Nat) (tokens : List Token) : Phrase → Prop
  | .value v => ∀ depth fuel rest, tokens.length ≤ fuel →
      readValue depth fuel (tokens ++ rest) = outcome d depth (v, rest)
  | .items vs => ∀ depth fuel rest, tokens.length < fuel →
      readItems depth fuel (tokens ++ .mark ']' :: rest) = outcome d depth (vs, rest)
  | .members quoted ms => ∀ depth closing key fuel rest,
      (∀ k token rest, KeySpelled quoted k token → key (token :: rest) = .ok (k, rest)) →
      tokens.length < fuel →
      readMembers depth closing key fuel (tokens ++ .mark closing :: rest) = outcome d depth (ms, rest)

/-- The tokens of a value do not begin with a closing bracket. -/
theorem Phrase.Spelled.exists_cons {v : Json} (h : (Phrase.value v).Spelled d tokens) :
    ∃ token ts, tokens = token :: ts ∧ token ≠ .mark ']' := by
  cases h <;> exact ⟨_, _, rfl, by simp⟩

theorem wordValue_of_notMem {w : String} (h : w ∉ ["true", "false", "null"]) :
    wordValue w = .str w := by
  simp only [List.mem_cons, List.not_mem_nil, or_false, not_or] at h
  unfold wordValue
  split
  · exact absurd rfl h.1
  · exact absurd rfl h.2.1
  · exact absurd rfl h.2.2
  · rfl

/-- A value of one token. -/
theorem reads_token {token : Token} {v : Json}
    (h : ∀ depth fuel rest, readValue depth (fuel + 1) (token :: rest) = .ok (v, rest)) :
    (Phrase.value v).Reads 0 [token] := by
  intro depth fuel rest hfuel
  obtain ⟨fuel, rfl⟩ := Nat.exists_eq_add_one_of_ne_zero (Nat.ne_of_gt hfuel)
  rw [outcome_zero, List.singleton_append, h]

/-- Tokens are read as what they spell; the fuel that is given is no less than their number. -/
theorem Phrase.Spelled.reads {phrase : Phrase} (h : phrase.Spelled d tokens) :
    phrase.Reads d tokens := by
  induction h with
  | null => exact reads_token fun _ _ _ => rfl
  | bool b => exact reads_token fun _ _ _ => by cases b <;> rfl
  | word h => exact reads_token fun _ _ _ => by rw [readValue, wordValue_of_notMem h]
  | string s => exact reads_token fun _ _ _ => rfl
  | number n => exact reads_token fun _ _ _ => rfl
  | @list vs d ts _ ih =>
    intro depth fuel rest hfuel
    rw [List.length_cons, List.length_append, List.length_singleton] at hfuel
    obtain ⟨fuel, rfl⟩ := Nat.exists_eq_add_one_of_ne_zero (show fuel ≠ 0 by omega)
    rw [List.cons_append, List.append_assoc, List.singleton_append, readValue]
    exact descend_eq_outcome fun inner => map_eq_outcome (ih inner fuel rest (by omega)) rfl
  | @object ms d ts _ ih =>
    intro depth fuel rest hfuel
    rw [List.length_cons, List.length_append, List.length_singleton] at hfuel
    obtain ⟨fuel, rfl⟩ := Nat.exists_eq_add_one_of_ne_zero (show fuel ≠ 0 by omega)
    rw [List.cons_append, List.append_assoc, List.singleton_append, readValue]
    have hkey : ∀ k token rest, KeySpelled true k token →
        expectKey (token :: rest) = .ok (k, rest) := by
      rintro k _ rest (_ | _) <;> rfl
    exact descend_eq_outcome fun inner =>
      map_eq_outcome (ih inner '\x7d' expectKey fuel rest hkey (by omega)) rfl
  | noItem =>
    intro depth fuel rest hfuel
    obtain ⟨fuel, rfl⟩ := Nat.exists_eq_add_one_of_ne_zero (Nat.ne_of_gt hfuel)
    rw [outcome_zero]
    rfl
  | @item v vs d e ts us h _ ih ihrest =>
    intro depth fuel rest hfuel
    obtain ⟨token, ts, rfl, hne⟩ := h.exists_cons
    rw [List.length_append, List.length_cons] at hfuel
    obtain ⟨fuel, rfl⟩ := Nat.exists_eq_add_one_of_ne_zero (show fuel ≠ 0 by omega)
    have hfirst := ih depth fuel (us ++ .mark ']' :: rest) (by rw [List.length_cons]; omega)
    rw [List.append_assoc, List.cons_append, readItems]
    · exact bind_eq_outcome hfirst (map_eq_outcome (ihrest depth fuel rest (by omega)) rfl)
    · rintro _ ⟨⟩
      exact hne rfl
  | noMember quoted =>
    intro depth closing key fuel rest _ hfuel
    obtain ⟨fuel, rfl⟩ := Nat.exists_eq_add_one_of_ne_zero (Nat.ne_of_gt hfuel)
    rw [outcome_zero, List.nil_append, readMembers]
    exact if_pos rfl
  | @member quoted key token v ms d e ts us hkey _ _ ih ihrest =>
    intro depth closing key fuel rest hread hfuel
    simp only [List.length_cons, List.length_append] at hfuel
    obtain ⟨fuel, rfl⟩ := Nat.exists_eq_add_one_of_ne_zero (show fuel ≠ 0 by omega)
    have hne : token ≠ .mark closing := by cases hkey <;> simp
    rw [List.cons_append, List.cons_append, List.append_assoc, readMembers,
      if_neg (by simpa using hne), bind_of_ok (hread _ _ _ hkey)]
    exact (bind_of_ok rfl).trans (bind_eq_outcome (ih depth fuel _ (by omega))
      (map_eq_outcome (ihrest depth closing key fuel rest hread (by omega)) rfl))

theorem ArgumentsSpelled.reads {arguments : Keyed Json} (h : ArgumentsSpelled arguments d tokens)
    (hrest : ∀ token ∈ rest.head?, token ≠ .mark '(') (depth : Nat) (hfuel : tokens.length ≤ fuel) :
    readArguments depth fuel (tokens ++ rest) = outcome d depth (arguments, rest) := by
  cases h with
  | none =>
    rw [outcome_zero, List.nil_append]
    unfold readArguments
    split
    · exact absurd rfl (hrest _ rfl)
    · rfl
  | @some ms d ts h =>
    rw [List.length_cons, List.length_append, List.length_singleton] at hfuel
    rw [List.cons_append, List.append_assoc, List.singleton_append, readArguments]
    have hkey : ∀ k token rest, KeySpelled false k token →
        expectName (token :: rest) = .ok (k, rest) := by
      rintro k _ rest (_ | _)
      rfl
    exact map_eq_outcome (h.reads depth ')' expectName fuel rest hkey (by omega)) rfl

theorem NameSpelled.reads {label : Option String} {name : String} (h : NameSpelled label name tokens)
    (hrest : ∀ token ∈ rest.head?, token ≠ .mark ':') :
    readFieldName (tokens ++ rest) = .ok ((label, name), rest) := by
  cases h with
  | plain =>
    rw [List.singleton_append, readFieldName]
    refine (bind_of_ok rfl).trans ?_
    dsimp only
    split
    · exact absurd rfl (hrest _ rfl)
    · rfl
  | labelled => rfl

theorem NameSpelled.exists_cons {label : Option String} {name : String}
    (h : NameSpelled label name tokens) : ∃ first ts, tokens = .name first :: ts := by
  cases h <;> exact ⟨_, _, rfl⟩

variable {c : Char}

/-- Where arguments may stand another mark does not, if it does not stand behind them. -/
theorem ArgumentsSpelled.head_ne {arguments : Keyed Json} (h : ArgumentsSpelled arguments d tokens)
    (hc : c ≠ '(') (hrest : ∀ token ∈ rest.head?, token ≠ .mark c) :
    ∀ token ∈ (tokens ++ rest).head?, token ≠ .mark c := by
  cases h with
  | none => exact hrest
  | some =>
    rintro _ ⟨⟩ heq
    cases heq
    exact hc rfl

/-- Fields begin with a name, and behind them is their closing brace. -/
theorem SelectionsSpelled.head_ne {selections : List Selection}
    (h : SelectionsSpelled selections d tokens) (hc : c ≠ '\x7d') (rest : List Token) :
    ∀ token ∈ (tokens ++ .mark '\x7d' :: rest).head?, token ≠ .mark c := by
  have hname : ∀ {label : Option String} {name : String} {names ts : List Token},
      NameSpelled label name names → ∀ token ∈ (names ++ ts ++ .mark '\x7d' :: rest).head?,
        token ≠ .mark c := by
    intro label name names ts hname
    obtain ⟨first, after, rfl⟩ := hname.exists_cons
    rintro _ ⟨⟩ ⟨⟩
  cases h with
  | nil =>
    rintro _ ⟨⟩ heq
    cases heq
    exact hc rfl
  | leaf h => exact hname h
  | branch h => exact hname h

/-- Fields are read up to their closing brace. -/
theorem SelectionsSpelled.reads {selections : List Selection}
    (h : SelectionsSpelled selections d tokens) (depth : Nat) (rest : List Token)
    (hfuel : tokens.length < fuel) :
    readSelections depth fuel (tokens ++ .mark '\x7d' :: rest) =
      outcome d depth (selections, rest) := by
  induction h generalizing depth fuel rest with
  | nil =>
    obtain ⟨fuel, rfl⟩ := Nat.exists_eq_add_one_of_ne_zero (Nat.ne_of_gt hfuel)
    rw [outcome_zero]
    rfl
  | @leaf label name arguments selections d e names args ts hname hargs h ih =>
    -- Behind the field stand other fields or the closing brace, so neither a label, nor arguments nor
    -- fields below are looked for.
    have hbehind : ∀ c ≠ '\x7d', ∀ token ∈ (ts ++ .mark '\x7d' :: rest).head?, token ≠ .mark c :=
      fun c hc => h.head_ne hc rest
    have hread := hname.reads (hargs.head_ne (by decide) (hbehind ':' (by decide)))
    obtain ⟨first, after, rfl⟩ := hname.exists_cons
    simp only [List.length_append, List.length_cons] at hfuel
    obtain ⟨fuel, rfl⟩ := Nat.exists_eq_add_one_of_ne_zero (show fuel ≠ 0 by omega)
    simp only [List.append_assoc, List.cons_append] at hread ⊢
    rw [readSelections]
    · refine (bind_of_ok hread).trans
        (bind_eq_outcome (hargs.reads (hbehind '(' (by decide)) depth (by omega)) ?_)
      dsimp only
      split
      · rename_i heq
        exact absurd rfl (hbehind '\x7b' (by decide) _ (by rw [heq]; rfl))
      · exact map_eq_outcome (ih depth rest (by omega)) rfl
    · rintro _ ⟨⟩
  | @branch label name arguments below selections d e f names args inner ts hname hargs _ _ ihbelow ih =>
    have hbehind : ∀ c ≠ '\x7b', ∀ token ∈
        (.mark '\x7b' :: (inner ++ .mark '\x7d' :: (ts ++ .mark '\x7d' :: rest)) : List Token).head?,
          token ≠ .mark c := by
      rintro c hc _ ⟨⟩ ⟨⟩
      exact hc rfl
    have hread := hname.reads (hargs.head_ne (by decide) (hbehind ':' (by decide)))
    obtain ⟨first, after, rfl⟩ := hname.exists_cons
    simp only [List.length_append, List.length_cons] at hfuel
    obtain ⟨fuel, rfl⟩ := Nat.exists_eq_add_one_of_ne_zero (show fuel ≠ 0 by omega)
    simp only [List.append_assoc, List.cons_append] at hread ⊢
    rw [readSelections]
    · refine (bind_of_ok hread).trans
        (bind_eq_outcome (hargs.reads (hbehind '(' (by decide)) depth (by omega)) ?_)
      change (descend depth >>= fun deeper => readSelections deeper fuel _ >>= _) = _
      rw [← bind_assoc]
      exact bind_eq_outcome (descend_eq_outcome fun deeper => ihbelow deeper _ (by omega))
        (map_eq_outcome (ih depth rest (by omega)) rfl)
    · rintro _ ⟨⟩

theorem HeadSpelled.reads {kind : RequestKind} {name : Option String}
    (h : HeadSpelled kind name tokens) (rest : List Token) :
    readHead (tokens ++ .mark '\x7b' :: rest) = .ok ((kind, name), .mark '\x7b' :: rest) := by
  cases h with
  | bare => rfl
  | kind => cases kind <;> rfl
  | named => cases kind <;> rfl

/-- A request is read of its tokens where they are nested no deeper than requests may be. -/
theorem Spelled.ofTokens_eq {request : Request} (h : request.Spelled d tokens) :
    ofTokens tokens = outcome d maxNesting request := by
  cases h with
  | @intro kind name selections d head ts hhead h hne =>
    rw [ofTokens]
    generalize hfuel : 2 * (head ++ Token.mark '\x7b' :: (ts ++ [.mark '\x7d'])).length + 1 = fuel
    have hfuel : ts.length < fuel := by
      simp only [List.length_append, List.length_cons] at hfuel
      omega
    have hopen : expectMark '\x7b' (.mark '\x7b' :: (ts ++ [.mark '\x7d'])) =
        .ok (ts ++ [.mark '\x7d']) := rfl
    refine (bind_of_ok (hhead.reads _)).trans ((bind_of_ok hopen).trans
      (descend_eq_outcome fun inner => map_eq_outcome (h.reads inner [] hfuel) ?_))
    dsimp only
    rw [if_neg (by simpa using hne)]
    rfl

theorem descend_eq_ok {inner : Nat} (h : descend depth = .ok inner) : depth = inner + 1 := by
  cases depth <;> cases h
  rfl

theorem expectMark_eq_ok (h : expectMark c tokens = .ok rest) : tokens = .mark c :: rest := by
  unfold expectMark at h
  split at h
  · cases h
  · split at h
    · rename_i hmark
      cases h
      rw [hmark]
    · cases h
  · cases h

theorem expectName_eq_ok {name : String} (h : expectName tokens = .ok (name, rest)) :
    tokens = .name name :: rest := by
  unfold expectName at h
  split at h <;> cases h
  rfl

theorem expectKey_eq_ok {key : String} (h : expectKey tokens = .ok (key, rest)) :
    ∃ token, tokens = token :: rest ∧ KeySpelled true key token := by
  unfold expectKey at h
  split at h <;> cases h
  · exact ⟨_, rfl, .name true key⟩
  · exact ⟨_, rfl, .string key⟩

/-- A part of a request that stands at the front of tokens, nested no deeper than is left. -/
def Phrase.Fronts (depth : Nat) (tokens rest : List Token) (phrase : Phrase) : Prop :=
  ∃ d ts, d ≤ depth ∧ tokens = ts ++ rest ∧ phrase.Spelled d ts

theorem wordValue_spelled (w : String) : (Phrase.value (wordValue w)).Spelled 0 [.name w] := by
  unfold wordValue
  split
  · exact .bool true
  · exact .bool false
  · exact .null
  · rename_i htrue hfalse hnull
    refine .word fun hmem => ?_
    simp only [List.mem_cons, List.not_mem_nil, or_false] at hmem
    rcases hmem with hmem | hmem | hmem
    exacts [htrue hmem, hfalse hmem, hnull hmem]

/-- What is read stands at the front of the tokens; a list, an object and arguments are followed by what
closes them. -/
theorem fronts_of_read (fuel : Nat) :
    (∀ {depth : Nat} {tokens rest : List Token} {v : Json},
      readValue depth fuel tokens = .ok (v, rest) → (Phrase.value v).Fronts depth tokens rest) ∧
    (∀ {depth : Nat} {tokens rest : List Token} {vs : List Json},
      readItems depth fuel tokens = .ok (vs, rest) →
        (Phrase.items vs).Fronts depth tokens (.mark ']' :: rest)) ∧
    (∀ {depth : Nat} {closing : Char} {key : List Token → Except SyntaxFault (String × List Token)}
      {quoted : Bool} {tokens rest : List Token} {ms : List (String × Json)},
      (∀ {tokens rest : List Token} {k : String}, key tokens = .ok (k, rest) →
        ∃ token, tokens = token :: rest ∧ KeySpelled quoted k token) →
      readMembers depth closing key fuel tokens = .ok (ms, rest) →
        (Phrase.members quoted ms).Fronts depth tokens (.mark closing :: rest)) := by
  induction fuel with
  | zero =>
    refine ⟨fun h => ?_, fun h => ?_, fun _ h => ?_⟩
    · unfold readValue at h
      cases h
    · unfold readItems at h
      cases h
    · unfold readMembers at h
      cases h
  | succ fuel ih =>
    obtain ⟨hvalue, hitems, hmembers⟩ := ih
    refine ⟨fun {depth tokens rest v} h => ?_, fun {depth tokens rest vs} h => ?_,
      fun {depth closing key quoted tokens rest ms} hkey h => ?_⟩
    · cases tokens with
      | nil =>
        unfold readValue at h
        cases h
      | cons token after =>
        unfold readValue at h
        split at h
        · cases h
          exact ⟨0, _, Nat.zero_le _, rfl, .string _⟩
        · cases h
          exact ⟨0, _, Nat.zero_le _, rfl, .number _⟩
        · cases h
          exact ⟨0, _, Nat.zero_le _, rfl, wordValue_spelled _⟩
        · obtain ⟨inner, hinner, h⟩ := Except.exists_of_bind_eq_ok h
          obtain ⟨⟨items, after⟩, hread, h⟩ := Except.exists_of_bind_eq_ok h
          cases h
          obtain ⟨d, ts, hd, rfl, hts⟩ := hitems hread
          refine ⟨d + 1, _, ?_, ?_, .list hts⟩
          · exact descend_eq_ok hinner ▸ Nat.succ_le_succ hd
          · simp
        · obtain ⟨inner, hinner, h⟩ := Except.exists_of_bind_eq_ok h
          obtain ⟨⟨members, after⟩, hread, h⟩ := Except.exists_of_bind_eq_ok h
          cases h
          obtain ⟨d, ts, hd, rfl, hts⟩ := hmembers expectKey_eq_ok hread
          refine ⟨d + 1, _, ?_, ?_, .object hts⟩
          · exact descend_eq_ok hinner ▸ Nat.succ_le_succ hd
          · simp
        · cases h
    · unfold readItems at h
      split at h
      · cases h
        exact ⟨0, [], Nat.zero_le _, rfl, .noItem⟩
      · obtain ⟨⟨item, after⟩, hitem, h⟩ := Except.exists_of_bind_eq_ok h
        obtain ⟨⟨others, behind⟩, hothers, h⟩ := Except.exists_of_bind_eq_ok h
        cases h
        obtain ⟨d, ts, hd, rfl, hts⟩ := hvalue hitem
        obtain ⟨e, us, he, rfl, hus⟩ := hitems hothers
        exact ⟨max d e, ts ++ us, max_le hd he, (List.append_assoc ..).symm, .item hts hus⟩
    · unfold readMembers at h
      split at h
      · rename_i hclosing
        cases h
        obtain ⟨after, rfl⟩ := List.head?_eq_some_iff.mp hclosing
        exact ⟨0, [], Nat.zero_le _, rfl, .noMember quoted⟩
      · obtain ⟨⟨name, named⟩, hname, h⟩ := Except.exists_of_bind_eq_ok h
        obtain ⟨marked, hmark, h⟩ := Except.exists_of_bind_eq_ok h
        obtain ⟨⟨v, after⟩, hv, h⟩ := Except.exists_of_bind_eq_ok h
        obtain ⟨⟨others, behind⟩, hothers, h⟩ := Except.exists_of_bind_eq_ok h
        cases h
        obtain ⟨token, rfl, hspelled⟩ := hkey hname
        have hcolon := expectMark_eq_ok hmark
        obtain ⟨d, ts, hd, rfl, hts⟩ := hvalue hv
        obtain ⟨e, us, he, rfl, hus⟩ := hmembers hkey hothers
        refine ⟨max d e, _, max_le hd he, ?_, .member hspelled hts hus⟩
        simp [hcolon]

theorem spelled_of_readArguments {arguments : Keyed Json}
    (h : readArguments depth fuel tokens = .ok (arguments, rest)) :
    ∃ d ts, d ≤ depth ∧ tokens = ts ++ rest ∧ ArgumentsSpelled arguments d ts := by
  unfold readArguments at h
  split at h
  · obtain ⟨⟨members, after⟩, hread, h⟩ := Except.exists_of_bind_eq_ok h
    cases h
    have hkey : ∀ {tokens rest : List Token} {k : String}, expectName tokens = .ok (k, rest) →
        ∃ token, tokens = token :: rest ∧ KeySpelled false k token :=
      fun h => ⟨_, expectName_eq_ok h, .name false _⟩
    obtain ⟨d, ts, hd, rfl, hts⟩ := (fronts_of_read fuel).2.2 hkey hread
    exact ⟨d, _, hd, by simp, .some hts⟩
  · cases h
    exact ⟨0, [], Nat.zero_le _, rfl, .none⟩

theorem spelled_of_readFieldName {label : Option String} {name : String}
    (h : readFieldName tokens = .ok ((label, name), rest)) :
    ∃ ts, tokens = ts ++ rest ∧ NameSpelled label name ts := by
  unfold readFieldName at h
  obtain ⟨⟨first, after⟩, hfirst, h⟩ := Except.exists_of_bind_eq_ok h
  rw [expectName_eq_ok hfirst]
  dsimp only at h
  split at h
  · obtain ⟨⟨name, behind⟩, hname, h⟩ := Except.exists_of_bind_eq_ok h
    cases h
    rw [expectName_eq_ok hname]
    exact ⟨_, rfl, .labelled first _⟩
  · cases h
    exact ⟨_, rfl, .plain _⟩

/-- Fields that are read stand at the front of the tokens, up to their closing brace. -/
theorem spelled_of_readSelections {selections : List Selection}
    (h : readSelections depth fuel tokens = .ok (selections, rest)) :
    ∃ d ts, d ≤ depth ∧ tokens = ts ++ .mark '\x7d' :: rest ∧ SelectionsSpelled selections d ts := by
  induction fuel generalizing depth tokens selections rest with
  | zero =>
    unfold readSelections at h
    cases h
  | succ fuel ih =>
    unfold readSelections at h
    split at h
    · cases h
      exact ⟨0, [], Nat.zero_le _, rfl, .nil⟩
    · obtain ⟨⟨⟨label, name⟩, named⟩, hname, h⟩ := Except.exists_of_bind_eq_ok h
      obtain ⟨⟨arguments, argued⟩, harguments, h⟩ := Except.exists_of_bind_eq_ok h
      obtain ⟨names, htokens, hnames⟩ := spelled_of_readFieldName hname
      obtain ⟨d, args, hd, hnamed, hargs⟩ := spelled_of_readArguments harguments
      dsimp only at h hnamed
      split at h
      · obtain ⟨inner, hinner, h⟩ := Except.exists_of_bind_eq_ok h
        obtain ⟨⟨below, nested⟩, hbelow, h⟩ := Except.exists_of_bind_eq_ok h
        obtain ⟨⟨others, behind⟩, hothers, h⟩ := Except.exists_of_bind_eq_ok h
        cases h
        obtain ⟨f, ts, hf, rfl, hts⟩ := ih hbelow
        obtain ⟨e, us, he, hnested, hus⟩ := ih hothers
        dsimp only at hnested
        refine ⟨_, _, max_le hd (max_le ?_ he), ?_, .branch hnames hargs hts hus⟩
        · exact descend_eq_ok hinner ▸ Nat.succ_le_succ hf
        · simp [htokens, hnamed, hnested]
      · obtain ⟨⟨others, behind⟩, hothers, h⟩ := Except.exists_of_bind_eq_ok h
        cases h
        obtain ⟨e, us, he, hargued, hus⟩ := ih hothers
        refine ⟨_, _, max_le hd he, ?_, .leaf hnames hargs hus⟩
        simp [htokens, hnamed, hargued]

theorem spelled_of_readHead {kind : RequestKind} {name : Option String}
    (h : readHead tokens = .ok ((kind, name), rest)) :
    ∃ head, tokens = head ++ rest ∧ HeadSpelled kind name head := by
  unfold readHead at h
  split at h
  · dsimp only at h
    split at h
    · split at h <;> cases h
      · exact ⟨_, rfl, .named .query _⟩
      · exact ⟨_, rfl, .kind .query⟩
    · split at h <;> cases h
      · exact ⟨_, rfl, .named .mutation _⟩
      · exact ⟨_, rfl, .kind .mutation⟩
    · cases h
  · cases h
    exact ⟨[], rfl, .bare⟩

/-- A request that is read is spelled by its tokens, nested no deeper than requests may be. -/
theorem spelled_of_ofTokens {request : Request} (h : ofTokens tokens = .ok request) :
    ∃ d ≤ maxNesting, request.Spelled d tokens := by
  unfold ofTokens at h
  obtain ⟨⟨⟨kind, name⟩, headed⟩, hhead, h⟩ := Except.exists_of_bind_eq_ok h
  obtain ⟨opened, hopened, h⟩ := Except.exists_of_bind_eq_ok h
  obtain ⟨depth, hdepth, h⟩ := Except.exists_of_bind_eq_ok h
  obtain ⟨⟨selections, behind⟩, hselections, h⟩ := Except.exists_of_bind_eq_ok h
  obtain ⟨head, htokens, hhead⟩ := spelled_of_readHead hhead
  have hheaded := expectMark_eq_ok hopened
  obtain ⟨d, ts, hd, hts, hfields⟩ := spelled_of_readSelections hselections
  dsimp only at hheaded hts h
  split at h
  · cases h
  · rename_i hne
    split at h
    · cases h
      rw [htokens, hheaded, hts]
      exact ⟨d + 1, descend_eq_ok hdepth ▸ Nat.succ_le_succ hd,
        .intro hhead hfields (by simpa using hne)⟩
    · cases h

/-- A request that a text shows is read of it, where it is not nested too deep there. -/
theorem Renders.ofText_eq {request : Request} {text : String} (h : request.Renders d text) :
    ofText text = outcome d maxNesting request := by
  obtain ⟨tokens, hspelled, hlaid⟩ := h
  exact (bind_of_ok (tokens_eq_ok_iff.mpr hlaid)).trans hspelled.ofTokens_eq

/-- What is read of a text is shown by it, nested no deeper than requests may be. -/
theorem exists_renders_of_ofText {request : Request} {text : String} (h : ofText text = .ok request) :
    ∃ depth ≤ maxNesting, request.Renders depth text := by
  obtain ⟨tokens, htokens, h⟩ := Except.exists_of_bind_eq_ok h
  obtain ⟨depth, hdepth, hspelled⟩ := spelled_of_ofTokens h
  exact ⟨depth, hdepth, tokens, hspelled, tokens_eq_ok_iff.mp htokens⟩

/-- A text is read as the request that it shows, nested no deeper than requests may be, and as no other.
The request that a text shows is in order and nested no deeper than the text, which is refused as too
deep where it is nested deeper than requests may be; and each request in order is shown by some text. -/
theorem ofText_eq_ok_iff_renders (text : String) (request : Request) :
    (ofText text = .ok request ↔ ∃ depth ≤ maxNesting, request.Renders depth text) ∧
      (∀ depth, request.Renders depth text → request.WellFormed ∧ request.depth ≤ depth ∧
        (maxNesting < depth → ofText text = .error .tooDeep)) ∧
      (request.WellFormed → ∃ shown, request.Renders request.depth shown) := by
  refine ⟨⟨exists_renders_of_ofText, ?_⟩,
    fun depth h => ⟨h.inOrder.1, h.inOrder.2, fun hdeep => ?_⟩, WellFormed.exists_renders⟩
  · rintro ⟨depth, hdepth, h⟩
    rw [h.ofText_eq, outcome, if_pos hdepth]
  · rw [h.ofText_eq, outcome, if_neg (Nat.not_le_of_gt hdeep)]

/-- A text with a comment, a comma that means nothing, an escaped quote, a repeated key and an empty
selection set. -/
theorem ofText_eq_ok_iff_renders_sample :
    let text := "mutation \x7b # one\n, a: b(v: [\"q\\\"\" 2.5e0 -7] w: \x7bk: 1, \"k\": null\x7d) \x7b\x7d\x7d"
    let items : List Json :=
      [.str "q\"", .num (.double ⟨false, 1024 * 2 ^ 52 + 2 ^ 50, by decide⟩), .num (.int (-7))]
    let arguments := [("v", .arr items), ("w", .obj [("k", .null)])]
    let request := ⟨.mutation, none, [.field (some "a") "b" arguments []]⟩
    ofText text = .ok request ∧ ∃ depth ≤ maxNesting, request.Renders depth text := by
  intro text items arguments request
  have htokens : tokens text = .ok [.name "mutation", .mark '\x7b', .name "a", .mark ':', .name "b",
      .mark '(', .name "v", .mark ':', .mark '[', .string "q\"",
      .number (.double ⟨false, 1024 * 2 ^ 52 + 2 ^ 50, by decide⟩), .number (.int (-7)), .mark ']',
      .name "w", .mark ':', .mark '\x7b', .name "k", .mark ':', .number (.int 1), .string "k",
      .mark ':', .name "null", .mark '\x7d', .mark ')', .mark '\x7b', .mark '\x7d', .mark '\x7d'] := by
    decide +kernel
  have hread : ofText text = .ok request := (bind_of_ok htokens).trans rfl
  exact ⟨hread, (ofText_eq_ok_iff_renders text request).1.mp hread⟩

/-- A number that begins with its point is refused, though with a zero before the point it is read; and
an integer with a point is read as a binary64 number. -/
theorem exists_decimal_unread :
    ∃ half : Double, Number.double? ['.', '5'] = some (.finite half) ∧
      ofText "\x7b a(v: 0.5) \x7d" =
        .ok ⟨.query, none, [.field none "a" [("v", .num (.double half))] []]⟩ ∧
      ofText "\x7b a(v: .5) \x7d" = .error (.unexpectedCharacter '.') ∧
      number? ['5', '.', '0'] = some (.double (.ofInt 5)) := by
  have hread : tokens "\x7b a(v: 0.5) \x7d" = .ok [.mark '\x7b', .name "a", .mark '(', .name "v",
      .mark ':', .number (.double ⟨false, 1022 * 2 ^ 52, by decide⟩), .mark ')', .mark '\x7d'] := by
    decide +kernel
  have hunread : tokens "\x7b a(v: .5) \x7d" = .error (.unexpectedCharacter '.') := by decide +kernel
  refine ⟨⟨false, 1022 * 2 ^ 52, by decide⟩, by decide +kernel, (bind_of_ok hread).trans rfl, ?_,
    by decide +kernel⟩
  rw [ofText, hunread]
  rfl

end Request

end DocumentEngine
