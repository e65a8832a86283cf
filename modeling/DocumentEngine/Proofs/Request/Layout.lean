import DocumentEngine.Proofs.Request.Numeral
import DocumentEngine.Proofs.State

/-!
The text of requests as tokens. Blanks, commas and comments stand between tokens, and they have to
only where a name or a number would go on otherwise; such a text is read as its tokens, and no other
text is read at all.
-/

namespace DocumentEngine

namespace Text

/-- The code points of blanks. -/
def blanks : List Nat :=
  [9, 10, 11, 12, 13, 0x20, 0x85, 0xA0, 0x1680, 0x2000, 0x2001, 0x2002, 0x2003, 0x2004, 0x2005,
    0x2006, 0x2007, 0x2008, 0x2009, 0x200A, 0x2028, 0x2029, 0x202F, 0x205F, 0x3000]

theorem mem_blanks {c : Char} (h : isBlank c = true) : c.toNat ∈ blanks := by
  simp only [isBlank, Bool.or_eq_true, Bool.and_eq_true, decide_eq_true_eq, beq_iff_eq] at h
  simp only [blanks, List.mem_cons, List.not_mem_nil, or_false]
  omega

theorem isAlphabetic_of_isBlank {c : Char} (h : isBlank c = true) : isAlphabetic c = false := by
  have hall : ∀ n ∈ blanks, within alphabeticBoundaries n = false := by decide +kernel
  exact hall _ (mem_blanks h)

/-- Before the capital letters no character is alphabetic. -/
theorem isAlphabetic_of_lt {c : Char} (h : c.toNat < 0x41) : isAlphabetic c = false :=
  if_pos h

end Text

namespace Request

theorem startsName_of_isBlank {c : Char} (h : Text.isBlank c = true) : startsName c = false := by
  have hword : c ≠ '_' := by
    rintro rfl
    exact absurd h (by decide)
  simp [startsName, Text.isAlphabetic_of_isBlank h, hword]

theorem startsName_of_lt {c : Char} (h : c.toNat < 0x41) : startsName c = false := by
  have hword : c ≠ '_' := by
    rintro rfl
    exact absurd h (by decide)
  simp [startsName, Text.isAlphabetic_of_lt h, hword]

/-- The characters that are tokens by themselves. -/
def marks : List Char := ['\x7b', '\x7d', '(', ')', '[', ']', ':']

theorem isMark_iff {c : Char} : isMark c = true ↔ c ∈ marks := by
  simp [isMark, marks, or_assoc]

/-- A mark has no other meaning. -/
theorem plain_of_isMark {c : Char} (h : isMark c = true) :
    Text.isBlank c = false ∧ c ≠ ',' ∧ c ≠ '#' ∧ c.isDigit = false ∧ startsName c = false := by
  have hall : marks.all (fun d =>
      !Text.isBlank d && d != ',' && d != '#' && !d.isDigit && !startsName d) = true := by
    decide +kernel
  simpa [and_assoc] using List.all_eq_true.mp hall c (isMark_iff.mp h)

/-- A name begins with no character that has another meaning. -/
theorem plain_of_startsName {c : Char} (h : startsName c = true) :
    Text.isBlank c = false ∧ c ≠ ',' ∧ c ≠ '#' ∧ isMark c = false ∧ c ≠ '"' ∧ c ≠ '-' ∧
      c.isDigit = false := by
  have hnot : ∀ d : Char, startsName d = false → c ≠ d := by
    rintro d hd rfl
    rw [h] at hd
    cases hd
  refine ⟨?_, hnot _ (startsName_of_lt (by decide)), hnot _ (startsName_of_lt (by decide)), ?_,
    hnot _ (startsName_of_lt (by decide)), hnot _ (startsName_of_lt (by decide)), ?_⟩
  · rw [Bool.eq_false_iff]
    intro hblank
    exact absurd (startsName_of_isBlank hblank) (by simp [h])
  · rw [Bool.eq_false_iff]
    intro hmark
    exact absurd (plain_of_isMark hmark).2.2.2.2 (by simp [h])
  · rw [Bool.eq_false_iff]
    intro hdigit
    have hrange := Char.isDigit_iff_toNat.mp hdigit
    have h9 : '9'.toNat = 57 := rfl
    exact absurd (startsName_of_lt (show c.toNat < 0x41 by omega)) (by simp [h])

/-- The text between the quotes of a string: a backslash stands before a quote, before a backslash
and before the letter of a control character, and may stand before any other character. -/
inductive Quoted : List Char → List Char → Prop where
  | nil : Quoted [] []
  | plain {c : Char} {s cs : List Char} (hquote : c ≠ '"') (hbackslash : c ≠ '\\')
      (h : Quoted s cs) : Quoted (c :: s) (c :: cs)
  | escaped {s cs : List Char} (c : Char) (h : Quoted s cs) :
      Quoted (unescape c :: s) ('\\' :: c :: cs)

namespace Token

/-- The text of a token. -/
inductive Spelled : Token → List Char → Prop where
  | name {c : Char} {cs : List Char} (hfirst : startsName c = true)
      (hrest : ∀ d ∈ cs, continuesName d = true) : Spelled (.name (String.ofList (c :: cs))) (c :: cs)
  | string {s cs : List Char} (h : Quoted s cs) :
      Spelled (.string (String.ofList s)) ('"' :: (cs ++ ['"']))
  | number {m : Numeral} {n : Number} (hproper : m.Proper) (h : m.Spells n) :
      Spelled (.number n) m.text
  | mark {c : Char} (h : isMark c = true) : Spelled (.mark c) [c]

/-- Text behind a token with which it does not go on. -/
def EndsBefore : Token → List Char → Prop
  | .name _, rest => ∀ c ∈ rest.head?, continuesName c = false
  | .number _, rest => ∀ c ∈ rest.head?, continuesNumber c = false
  | _, _ => True

end Token

/-- Text in which tokens stand in order, with blanks, commas and comments between them, a comment up to
the end of its line. -/
inductive Laid : List Token → List Char → Prop where
  | nil : Laid [] []
  | blank {tokens : List Token} {c : Char} {cs : List Char}
      (hblank : Text.isBlank c = true ∨ c = ',') (h : Laid tokens cs) : Laid tokens (c :: cs)
  | comment {tokens : List Token} {words cs : List Char} (hline : '\n' ∉ words)
      (hend : ∀ c ∈ cs.head?, c = '\n') (h : Laid tokens cs) : Laid tokens ('#' :: (words ++ cs))
  | token {token : Token} {tokens : List Token} {word cs : List Char} (hword : token.Spelled word)
      (hends : token.EndsBefore cs) (h : Laid tokens cs) : Laid (token :: tokens) (word ++ cs)

variable {token : Token} {tokens : List Token} {cs rest : List Char} {fuel : Nat}

theorem readString_append {s : List Char} (h : Quoted s cs) (rest : List Char) :
    readString (cs ++ '"' :: rest) = some (s, rest) := by
  induction h with
  | nil => rfl
  | plain hquote hbackslash _ ih =>
    rw [List.cons_append, readString]
    · rw [if_neg hbackslash, ih]
      rfl
    · exact hquote
    · intro _ _ hcons
      cases hcons
      exact absurd rfl hbackslash
  | escaped c _ ih =>
    rw [List.cons_append, List.cons_append, readString, ih]
    rfl

theorem exists_quoted {s : List Char} (h : readString cs = some (s, rest)) :
    ∃ inside, Quoted s inside ∧ cs = inside ++ '"' :: rest := by
  fun_induction readString cs generalizing s with
  | case1 => cases h
  | case2 rest =>
    cases h
    exact ⟨[], .nil, rfl⟩
  | case3 c cs ih =>
    obtain ⟨⟨read, tail⟩, hread, hall⟩ := Option.map_eq_some_iff.mp h
    cases hall
    obtain ⟨inside, hquoted, rfl⟩ := ih hread
    exact ⟨_, .escaped c hquoted, rfl⟩
  | case4 => cases h
  | case5 c cs hquote _ hbackslash ih =>
    obtain ⟨⟨read, tail⟩, hread, hall⟩ := Option.map_eq_some_iff.mp h
    cases hall
    obtain ⟨inside, hquoted, rfl⟩ := ih hread
    exact ⟨_, .plain hquote hbackslash hquoted, rfl⟩

/-- Where a run of characters of a kind ends. -/
theorem takeWhile_run {p : Char → Bool} {word : List Char} (hword : ∀ c ∈ word, p c = true)
    (hend : ∀ c ∈ rest.head?, p c = false) :
    (word ++ rest).takeWhile p = word ∧ (word ++ rest).dropWhile p = rest := by
  rw [List.takeWhile_append_of_pos hword, List.dropWhile_append_of_pos hword]
  cases rest with
  | nil => simp
  | cons c rest => simp [hend c rfl]

/-- A character that begins a number. -/
theorem plain_of_startsNumber {c : Char} (h : c = '-' ∨ c.isDigit = true) :
    Text.isBlank c = false ∧ c ≠ ',' ∧ c ≠ '#' ∧ isMark c = false ∧ c ≠ '"' := by
  rcases h with rfl | h
  · decide
  · have hnot : ∀ d : Char, d.isDigit = false → c ≠ d := by
      rintro d hd rfl
      rw [h] at hd
      cases hd
    have hmark : isMark c = false := by
      rw [Bool.eq_false_iff]
      intro hmark
      exact hnot c (plain_of_isMark hmark).2.2.2.1 rfl
    exact ⟨Number.isBlank_of_isDigit h, hnot _ rfl, hnot _ rfl, hmark, hnot _ rfl⟩

/-- A token is read of its text, where that does not go on. -/
theorem readTokens_append {word : List Char} (hword : token.Spelled word)
    (hends : token.EndsBefore rest) (fuel : Nat) :
    readTokens (fuel + 1) (word ++ rest) =
      readTokens fuel rest >>= fun tokens => .ok (token :: tokens) := by
  cases hword with
  | @name c cs hfirst hrest =>
    obtain ⟨hblank, hcomma, hcomment, hmark, hquote, hminus, hdigit⟩ := plain_of_startsName hfirst
    obtain ⟨htake, hdrop⟩ := takeWhile_run hrest hends
    rw [List.cons_append, readTokens, if_neg (by simp [hblank, hcomma]), if_neg hcomment,
      if_neg (by simp [hmark]), if_neg hquote, if_neg (by simp [hminus, hdigit]), if_pos hfirst,
      htake, hdrop]
    rfl
  | @string s cs h =>
    rw [List.cons_append, List.append_assoc, List.singleton_append, readTokens,
      if_neg (by decide), if_neg (by decide), if_neg (by decide), if_pos rfl,
      readString_append h]
    rfl
  | @number m n hproper h =>
    obtain ⟨c, cs, htext, hfirst⟩ := Numeral.exists_text hproper
    obtain ⟨hblank, hcomma, hcomment, hmark, hquote⟩ := plain_of_startsNumber hfirst
    have hrest : ∀ d ∈ cs, continuesNumber d = true := fun d hd =>
      Numeral.continuesNumber_text hproper d (htext ▸ List.mem_cons_of_mem c hd)
    obtain ⟨htake, hdrop⟩ := takeWhile_run hrest hends
    have hread : number? (c :: cs) = some n :=
      (number?_eq_some_iff (by simpa using hfirst)).mpr ⟨m, hproper, htext, h⟩
    rw [htext, List.cons_append, readTokens, if_neg (by simp [hblank, hcomma]), if_neg hcomment,
      if_neg (by simp [hmark]), if_neg hquote, if_pos (by simpa using hfirst), htake, hdrop]
    dsimp only
    rw [hread]
    rfl
  | @mark c h =>
    obtain ⟨hblank, hcomma, hcomment, -⟩ := plain_of_isMark h
    rw [List.singleton_append, readTokens, if_neg (by simp [hblank, hcomma]), if_neg hcomment,
      if_pos h]
    rfl

theorem Token.Spelled.ne_nil {word : List Char} (h : token.Spelled word) : word ≠ [] := by
  cases h with
  | name => exact List.cons_ne_nil _ _
  | string => exact List.cons_ne_nil _ _
  | number hproper =>
    obtain ⟨c, cs, htext, -⟩ := Numeral.exists_text hproper
    exact htext ▸ List.cons_ne_nil c cs
  | mark => exact List.cons_ne_nil _ _

/-- A text is read as the tokens that stand in it. -/
theorem Laid.readTokens_eq (h : Laid tokens cs) (hfuel : cs.length ≤ fuel) :
    readTokens fuel cs = .ok tokens := by
  induction h generalizing fuel with
  | nil => cases fuel <;> rfl
  | @blank tokens c cs hblank _ ih =>
    rw [List.length_cons] at hfuel
    obtain ⟨fuel, rfl⟩ := Nat.exists_eq_add_one_of_ne_zero (show fuel ≠ 0 by omega)
    rw [readTokens, if_pos (by simpa using hblank)]
    exact ih (by omega)
  | @comment tokens words cs hline hend _ ih =>
    rw [List.length_cons, List.length_append] at hfuel
    obtain ⟨fuel, rfl⟩ := Nat.exists_eq_add_one_of_ne_zero (show fuel ≠ 0 by omega)
    have hskip : (words ++ cs).dropWhile (· ≠ '\n') = cs := by
      refine (takeWhile_run (fun c hc => ?_) fun c hc => ?_).2
      · simpa using fun heq : c = '\n' => hline (heq ▸ hc)
      · simp [hend c hc]
    rw [readTokens, if_neg (by decide), if_pos rfl, hskip]
    exact ih (by omega)
  | @token token tokens word cs hword hends _ ih =>
    have hpos := List.length_pos_iff.mpr hword.ne_nil
    rw [List.length_append] at hfuel
    obtain ⟨fuel, rfl⟩ := Nat.exists_eq_add_one_of_ne_zero (show fuel ≠ 0 by omega)
    rw [readTokens_append hword hends, ih (by omega)]
    rfl

/-- In a text that is read its tokens stand. -/
theorem laid_of_readTokens (h : readTokens fuel cs = .ok tokens) (hfuel : cs.length ≤ fuel) :
    Laid tokens cs := by
  induction fuel generalizing cs tokens with
  | zero =>
    cases h
    rw [List.length_eq_zero_iff.mp (Nat.le_zero.mp hfuel)]
    exact .nil
  | succ fuel ih =>
    cases cs with
    | nil =>
      cases h
      exact .nil
    | cons c cs =>
      rw [List.length_cons] at hfuel
      have hshort : ∀ p : Char → Bool, (cs.dropWhile p).length ≤ fuel := fun p =>
        (List.length_dropWhile_le p cs).trans (by omega)
      -- A token is spelled by what was cut off, and what is left does not go on with it.
      have htoken : ∀ {token : Token} {word rest : List Char}, c :: cs = word ++ rest →
          token.Spelled word → token.EndsBefore rest → rest.length ≤ fuel →
          (readTokens fuel rest >>= fun rest => .ok (token :: rest)) = .ok tokens →
          Laid tokens (c :: cs) := by
        intro token word rest hcut hword hends hlength hread
        obtain ⟨others, hothers, hall⟩ := Except.exists_of_bind_eq_ok hread
        cases hall
        rw [hcut]
        exact .token hword hends (ih hothers hlength)
      have hrun : ∀ p : Char → Bool, c :: cs = (c :: cs.takeWhile p) ++ cs.dropWhile p := fun p => by
        rw [List.cons_append, List.takeWhile_append_dropWhile]
      have hstop : ∀ p : Char → Bool, ∀ d ∈ (cs.dropWhile p).head?, p d = false := fun p d hd => by
        have hhead := List.head?_dropWhile_not p cs
        rw [Option.mem_def.mp hd] at hhead
        exact hhead
      rw [readTokens] at h
      split at h
      · rename_i hblank
        exact .blank (by simpa using hblank) (ih h (by omega))
      · split at h
        · rename_i hcomment
          subst hcomment
          have hcut : '#' :: cs = '#' :: (cs.takeWhile (· ≠ '\n') ++ cs.dropWhile (· ≠ '\n')) := by
            rw [List.takeWhile_append_dropWhile]
          rw [hcut]
          refine .comment (fun hmem => ?_) (fun d hd => ?_) (ih h (hshort _))
          · simpa using List.mem_takeWhile_imp hmem
          · simpa using hstop (· ≠ '\n') d hd
        · split at h
          · rename_i hmark
            exact htoken (List.singleton_append).symm (.mark hmark) trivial (by omega) h
          · split at h
            · rename_i hquote
              subst hquote
              split at h
              · cases h
              · rename_i s rest hread
                obtain ⟨inside, hquoted, rfl⟩ := exists_quoted hread
                refine htoken ?_ (.string hquoted) trivial ?_ h
                · simp
                · rw [List.length_append, List.length_cons] at hfuel
                  omega
            · split at h
              · rename_i hfirst
                dsimp only at h
                split at h
                · cases h
                · rename_i n hn
                  obtain ⟨m, hproper, htext, hspells⟩ :=
                    (number?_eq_some_iff (by simpa using hfirst)).mp hn
                  have hends : Token.EndsBefore (.number n) (cs.dropWhile continuesNumber) :=
                    hstop continuesNumber
                  exact htoken (hrun continuesNumber) (htext ▸ .number hproper hspells) hends
                    (hshort _) h
              · split at h
                · rename_i hfirst
                  have hword := Token.Spelled.name hfirst fun d hd =>
                    List.mem_takeWhile_imp (p := continuesName) (l := cs) hd
                  exact htoken (hrun continuesName) hword (hstop continuesName) (hshort _) h
                · cases h

/-- The tokens of a text are those that stand in it. -/
theorem tokens_eq_ok_iff {text : String} : Request.tokens text = .ok tokens ↔ Laid tokens text.toList :=
  ⟨fun h => laid_of_readTokens h le_rfl, fun h => h.readTokens_eq le_rfl⟩

/-- A token that has a text. -/
def Token.IsSpelled (token : Token) : Prop := ∃ word, token.Spelled word

theorem Laid.isSpelled (h : Laid tokens cs) : ∀ token ∈ tokens, token.IsSpelled := by
  induction h with
  | nil => simp
  | blank _ _ ih => exact ih
  | comment _ _ _ ih => exact ih
  | token hword _ _ ih => exact List.forall_mem_cons.mpr ⟨⟨_, hword⟩, ih⟩

/-- Behind a blank nothing goes on. -/
theorem Token.endsBefore_blank (token : Token) (rest : List Char) : token.EndsBefore (' ' :: rest) := by
  cases token with
  | name =>
    rintro c ⟨⟩
    decide +kernel
  | number =>
    rintro c ⟨⟩
    decide
  | string => trivial
  | mark => trivial

/-- Tokens that have texts stand in some text, with blanks between them. -/
theorem exists_laid (h : ∀ token ∈ tokens, token.IsSpelled) : ∃ cs, Laid tokens cs := by
  induction tokens with
  | nil => exact ⟨[], .nil⟩
  | cons token tokens ih =>
    obtain ⟨word, hword⟩ := h token List.mem_cons_self
    obtain ⟨cs, hcs⟩ := ih fun other hother => h other (List.mem_cons_of_mem _ hother)
    exact ⟨word ++ ' ' :: cs, .token hword (token.endsBefore_blank cs) (.blank (.inl rfl) hcs)⟩

/-- Every text can be written between quotes. -/
theorem exists_quoted_self (s : List Char) : ∃ cs, Quoted s cs := by
  induction s with
  | nil => exact ⟨[], .nil⟩
  | cons c s ih =>
    obtain ⟨cs, hcs⟩ := ih
    by_cases hplain : c = '"' ∨ c = '\\'
    · have hself : unescape c = c := by rcases hplain with rfl | rfl <;> rfl
      have hescaped := Quoted.escaped c hcs
      rw [hself] at hescaped
      exact ⟨_, hescaped⟩
    · rw [not_or] at hplain
      exact ⟨_, .plain hplain.1 hplain.2 hcs⟩

/-- A name as requests write them. -/
def IsIdentifier (name : String) : Prop :=
  ∃ c cs, name.toList = c :: cs ∧ startsName c = true ∧ ∀ d ∈ cs, continuesName d = true

namespace Token

theorem isSpelled_name_iff {name : String} : (Token.name name).IsSpelled ↔ IsIdentifier name := by
  constructor
  · rintro ⟨_, ⟨hfirst, hrest⟩⟩
    exact ⟨_, _, String.toList_ofList, hfirst, hrest⟩
  · rintro ⟨c, cs, hname, hfirst, hrest⟩
    have hspelled := Spelled.name hfirst hrest
    rw [← hname, String.ofList_toList] at hspelled
    exact ⟨_, hspelled⟩

theorem isSpelled_string (s : String) : (Token.string s).IsSpelled := by
  obtain ⟨cs, hcs⟩ := exists_quoted_self s.toList
  have hspelled := Spelled.string hcs
  rw [String.ofList_toList] at hspelled
  exact ⟨_, hspelled⟩

theorem isSpelled_number_iff {n : Number} : (Token.number n).IsSpelled ↔ n.IsSigned := by
  constructor
  · rintro ⟨_, _ | _ | ⟨-, hspells⟩⟩
    exact hspells.isSigned
  · intro h
    obtain ⟨m, hproper, hspells⟩ := Numeral.exists_spells h
    exact ⟨_, .number hproper hspells⟩

theorem isSpelled_mark {c : Char} (h : isMark c = true) : (Token.mark c).IsSpelled := ⟨_, .mark h⟩

end Token

end Request

end DocumentEngine
