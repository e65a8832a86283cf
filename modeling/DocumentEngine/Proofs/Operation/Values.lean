import DocumentEngine.Operation.Catalog
import DocumentEngine.Proofs.Json.Equality
import DocumentEngine.Proofs.Json.Printed
import DocumentEngine.Proofs.Json.Reader
import DocumentEngine.Proofs.Operation.Layout

/-!
The values that operations set. A descriptor spells them, between braces of which the first closing
one is the last, so that their numbers fit their kinds in every mutation of the catalog of a
schema.
-/

namespace DocumentEngine

deriving instance DecidableEq for Operation

namespace Descriptor

theorem inRange_valueOf (cs : List Char) : (valueOf cs).InRange := by
  unfold valueOf
  split
  · exact .bool true
  · split
    · exact .bool false
    · split
      · rename_i n hsigned
        exact .num (Number.inRange_of_signed? hsigned)
      · split
        · exact .num trivial
        · exact .str _

theorem inRange_of_entry {cs : List Char} {found : String × Json} (h : entry cs = .ok found) :
    found.2.InRange := by
  unfold entry at h
  split at h
  · cases h
  · dsimp only at h
    split at h
    · cases h
    · cases h
      exact inRange_valueOf _

theorem inRange_of_entries {raw : List Char} {set : Keyed Json} (h : entries raw = .ok set) :
    Json.InRange (.obj set) := by
  unfold entries at h
  split at h
  · cases h
  · obtain ⟨found, hfound, h⟩ := Except.exists_of_bind_eq_ok h
    cases h
    exact Json.InRange.object (Except.forall_of_mapM_eq_ok (fun _ _ => inRange_of_entry) hfound)

/-- What stands between the braces of a text has no closing brace in it. -/
def ClosesOnce (raw : List Char) : Prop :=
  ∀ body, inner? '\x7b' '\x7d' raw = some body → '\x7d' ∉ body

variable {cs value rest gap : List Char} {f : Fragment} {fuel : Nat}

theorem inner?_concat (opening closing : Char) (cs : List Char) :
    inner? opening closing (opening :: (cs ++ [closing])) = some cs := by
  simp [inner?]

theorem inner?_of_ne {c opening closing : Char} (h : c ≠ opening) (cs : List Char) :
    inner? opening closing (c :: cs) = none := by
  simp [inner?, h]

theorem splitOnce?_append {before : List Char} {sep : Char} (h : sep ∉ before) (after : List Char) :
    splitOnce? sep (before ++ sep :: after) = some (before, after) := by
  have hbefore : ∀ c ∈ before, decide (c ≠ sep) = true := fun c hc => by
    simpa using fun heq : c = sep => h (heq ▸ hc)
  have hrun := Request.takeWhile_run hbefore fun c (hc : c ∈ (sep :: after).head?) => by
    cases hc
    simp
  rw [splitOnce?, hrun.1, hrun.2]

theorem eq_of_splitOnce? {sep : Char} {before after : List Char}
    (h : splitOnce? sep cs = some (before, after)) :
    sep ∉ before ∧ cs = before ++ sep :: after := by
  have hall := List.takeWhile_append_dropWhile (p := (· ≠ sep)) (l := cs)
  unfold splitOnce? at h
  split at h
  · cases h
  · rename_i c tail hdrop
    cases h
    have hhead := List.head?_dropWhile_not (· ≠ sep) cs
    rw [hdrop] at hhead hall
    obtain rfl : c = sep := by simpa using hhead
    exact ⟨fun hmem => by simpa using List.mem_takeWhile_imp hmem, hall.symm⟩

theorem eq_of_inner? {opening closing : Char} {body : List Char}
    (h : inner? opening closing cs = some body) : cs = opening :: (body ++ [closing]) := by
  cases cs with
  | nil => cases h
  | cons c cs =>
    rw [inner?] at h
    split at h
    · rename_i hends
      rw [Bool.and_eq_true, decide_eq_true_eq, decide_eq_true_eq] at hends
      cases h
      rw [hends.1, List.dropLast_append_getLast? closing hends.2]
    · cases h

theorem eq_of_enclosed? {opening closing : Char}
    (h : enclosed? opening closing cs = some (value, rest)) :
    ∃ inside, closing ∉ inside ∧ value = opening :: (inside ++ [closing]) ∧
      cs = opening :: (inside ++ closing :: rest) := by
  cases cs with
  | nil => cases h
  | cons c cs =>
    rw [enclosed?] at h
    split at h
    · rename_i hopening
      obtain ⟨⟨inside, tail⟩, hsplit, hvalue⟩ := Option.map_eq_some_iff.mp h
      cases hvalue
      obtain ⟨hnone, hcut⟩ := eq_of_splitOnce? hsplit
      exact ⟨inside, hnone, by rw [hopening, List.cons_append], by rw [hopening, hcut]⟩
    · cases h

theorem trimChars_subset (cs : List Char) : Text.trimChars cs ⊆ cs := by
  intro c hc
  have hleft := (List.dropWhile_sublist _).subset (List.mem_reverse.mp hc)
  exact (List.dropWhile_sublist _).subset (List.mem_reverse.mp hleft)

/-- A text that does not begin with a blank begins as before when it is trimmed. -/
theorem head?_trimChars {c : Char} (hc : Text.isBlank c = false) (cs : List Char) :
    (Text.trimChars (c :: cs)).head? = some c := by
  rw [Text.trimChars, List.dropWhile_cons_of_neg (by simp [hc]), List.head?_reverse]
  rw [List.reverse_cons, List.dropWhile_append]
  split
  · simp [hc]
  · rw [List.getLast?_concat]

theorem closesOnce_of_value? (h : value? cs = some (value, rest)) :
    ClosesOnce (Text.trimChars value) := by
  intro body hbody
  have hraw := eq_of_inner? hbody
  simp only [value?, Option.orElse_eq_some] at h
  -- values that begin with another mark are not between braces
  have hother : ∀ {opening closing : Char}, opening ≠ '\x7b' → Text.isBlank opening = false →
      enclosed? opening closing cs ≠ some (value, rest) := by
    intro opening closing hne hblank hread
    obtain ⟨inside, -, hvalue, -⟩ := eq_of_enclosed? hread
    have hhead := head?_trimChars hblank (inside ++ [closing])
    rw [← hvalue, hraw] at hhead
    exact hne (Option.some.inj hhead).symm
  rcases h with h | ⟨-, h | ⟨hbraces, h | ⟨-, h | ⟨-, h⟩⟩⟩⟩
  · exact absurd h (hother (by decide) (by decide))
  · obtain ⟨inside, hnone, rfl, -⟩ := eq_of_enclosed? h
    have htight : Tight ('\x7b' :: (inside ++ ['\x7d'])) := Part.tight_value (.set []) inside
    rw [htight.trimChars_eq, inner?_concat] at hbody
    cases hbody
    exact hnone
  · exact absurd h (hother (by decide) (by decide))
  · exact absurd h (hother (by decide) (by decide))
  · cases cs with
    | nil => cases h
    | cons c cs =>
      rw [bare?] at h
      split at h
      · cases h
      · rename_i hplain
        simp only [Bool.or_eq_true, not_or, Bool.not_eq_true] at hplain
        cases h
        have hhead := head?_trimChars hplain.2 (cs.takeWhile (· ≠ ','))
        rw [hraw] at hhead
        obtain rfl : '\x7b' = c := Option.some.inj hhead
        -- the brace at the end would have closed the one at the front
        have hclosing : '\x7d' ∈ Text.trimChars ('\x7b' :: cs.takeWhile (· ≠ ',')) := by
          rw [hraw]
          simp
        have hmem : '\x7d' ∈ cs :=
          (List.takeWhile_sublist _).subset
            (List.mem_of_ne_of_mem (by decide) (trimChars_subset _ hclosing))
        obtain ⟨inside, tail, rfl, hnone⟩ := List.eq_append_cons_of_mem hmem
        rw [enclosed?, if_pos rfl, splitOnce?_append hnone] at hbraces
        cases hbraces

theorem closesOnce_of_nextFragment? (h : nextFragment? gap fuel cs = some (f, rest)) :
    ClosesOnce (Text.trimChars f.value) := by
  induction fuel generalizing gap cs with
  | zero => cases h
  | succ fuel ih =>
    cases cs with
    | nil => cases h
    | cons c cs =>
      rw [nextFragment?] at h
      split at h
      · dsimp only at h
        split at h
        · rename_i value after hassigned
          cases h
          unfold assigned? at hassigned
          split at hassigned
          · exact closesOnce_of_value? hassigned
          · cases hassigned
        · exact ih h
      · exact ih h

theorem closesOnce_of_fragments :
    ∀ f ∈ (fragments fuel cs).1, ClosesOnce (Text.trimChars f.value) := by
  induction fuel generalizing cs with
  | zero => simp [fragments]
  | succ fuel ih =>
    rw [fragments]
    split
    · simp
    · rename_i f after hnext
      exact List.forall_mem_cons.mpr ⟨closesOnce_of_nextFragment? hnext, ih⟩

section

variable {p : Keyed Json → Prop}
  (hentries : ∀ {raw set}, ClosesOnce raw → entries raw = .ok set → p set)

include hentries

theorem set_of_add {d after : Descriptor} (hf : ClosesOnce (Text.trimChars f.value)) (hd : p d.set)
    (h : d.add f = .ok after) : p after.set := by
  unfold add at h
  dsimp only at h
  split at h
  · obtain ⟨assign, -, h⟩ := Except.exists_of_bind_eq_ok h
    cases h
    exact hd
  · obtain ⟨set, hset, h⟩ := Except.exists_of_bind_eq_ok h
    cases h
    exact hentries hf hset
  · cases h
    exact hd
  · cases h

theorem set_of_addAll {fragments : List Fragment} {d after : Descriptor} {first : Bool}
    (hf : ∀ f ∈ fragments, ClosesOnce (Text.trimChars f.value)) (hd : p d.set)
    (h : d.addAll first fragments = .ok after) : p after.set := by
  induction fragments generalizing d first with
  | nil =>
    cases h
    exact hd
  | cons f fragments ih =>
    rw [List.forall_mem_cons] at hf
    unfold addAll at h
    have hrest : ∀ {check : Except DescriptorFault Unit},
        (check >>= fun _ => d.add f >>= fun more => addAll more false fragments) = .ok after →
          p after.set := by
      intro check hadded
      obtain ⟨⟨⟩, -, hadded⟩ := Except.exists_of_bind_eq_ok hadded
      obtain ⟨more, hmore, hadded⟩ := Except.exists_of_bind_eq_ok hadded
      exact ih hf.2 (set_of_add hentries hf.1 hd hmore) hadded
    split at h
    · exact hrest h
    · exact hrest h

/-- What holds of no values and of those that maps spell holds of the values of a descriptor. -/
theorem set_of_ofText (hnil : p []) {text : String} {d : Descriptor} (h : ofText text = .ok d) :
    p d.set := by
  unfold ofText at h
  dsimp only at h
  split at h
  · cases h
  · split at h
    · rename_i read hread
      cases h
      unfold readBody at hread
      dsimp only at hread
      split at hread
      · cases hread
      · obtain ⟨added, hadded, hread⟩ := Except.exists_of_bind_eq_ok hread
        obtain ⟨⟨⟩, -, hread⟩ := Except.exists_of_bind_eq_ok hread
        cases hread
        exact set_of_addAll hentries closesOnce_of_fragments hnil hadded
    · cases h

end

end Descriptor

namespace DocumentType

variable {t : DocumentType} {operations : List Operation} {op other : Operation}

/-- An operation that a descriptor of a type declares: it assigns fields of the type and sets what
the descriptor spells. -/
structure Declares (t : DocumentType) (op : Operation) : Prop where
  explicit : op.implicit = false
  assigned : ∀ name ∈ op.assign, (t.field? name).isSome = true
  spelled : ∃ text d, Descriptor.ofText text = .ok d ∧ op.set = d.set

/-- An operation that a type has by itself, beside the operations that are given: it sets nothing,
and assigns fields that are not the identifier and that no declared operation claims. -/
structure Implies (t : DocumentType) (operations : List Operation) (op : Operation) : Prop where
  implicit : op.implicit = true
  set : op.set = []
  assigned : ∀ name ∈ op.assign, name ≠ t.identifierName ∧ (t.field? name).isSome = true
  unclaimed : ∀ name ∈ op.assign, ∀ other ∈ operations, other.implicit = false →
    name ∉ other.assign

theorem declares_of_declaredOperation {text : String} (h : t.declaredOperation text = .ok op) :
    t.Declares op := by
  unfold declaredOperation at h
  obtain ⟨d, hd, h⟩ := Except.exists_of_bind_eq_ok h
  obtain ⟨context, -, h⟩ := Except.exists_of_bind_eq_ok h
  split at h
  · cases h
  · rename_i hnone
    cases h
    refine ⟨rfl, fun name hname => ?_, text, d, hd, rfl⟩
    simpa [Option.isSome_iff_ne_none] using List.find?_eq_none.mp hnone name hname

theorem mem_of_appendOperations {before declared : List Operation}
    (h : t.appendOperations before declared = .ok operations) :
    ∀ op ∈ operations, op ∈ before ∨ op ∈ declared := by
  induction declared generalizing before with
  | nil =>
    cases h
    exact fun op hop => .inl hop
  | cons first declared ih =>
    unfold appendOperations at h
    split at h
    · cases h
    · intro op hop
      rcases ih h op hop with hbefore | hdeclared
      · rcases List.mem_append.mp hbefore with hbefore | hfirst
        · exact .inl hbefore
        · exact .inr (List.mem_cons.mpr (.inl (List.mem_singleton.mp hfirst)))
      · exact .inr (List.mem_cons_of_mem _ hdeclared)

theorem mem_implicitOperations {assign : List String} (h : op ∈ t.implicitOperations assign) :
    ∃ name context taken, taken ⊆ assign ∧ op = .ofImplicit name context taken := by
  unfold implicitOperations at h
  simp only [List.mem_append] at h
  rcases h with (h | h) | h <;> split at h
  · exact ⟨_, _, assign, List.Subset.refl _, List.mem_singleton.mp h⟩
  · cases h
  · exact ⟨_, _, assign, List.Subset.refl _, List.mem_singleton.mp h⟩
  · cases h
  · exact ⟨_, _, [], List.nil_subset _, List.mem_singleton.mp h⟩
  · cases h

/-- The operations of a type are implicit ones, which assign the fields that are left, and behind
them the declared ones. -/
theorem operations_eq_ok (h : t.operations = .ok operations) :
    ∃ identifier declared, t.identifier? = some identifier ∧
      (∀ op ∈ declared, ∃ text, t.declaredOperation text = .ok op) ∧
      t.appendOperations (t.implicitOperations ((t.fields.map (·.name)).filter fun name =>
        name != t.identifierName && !(declared.flatMap (·.assign)).contains name)) declared =
          .ok operations := by
  unfold DocumentType.operations at h
  rw [identifierName]
  cases hidentifier : t.identifier? with
  | none =>
    rw [hidentifier] at h
    cases h
  | some f =>
    rw [hidentifier] at h
    obtain ⟨identifier, hown, h⟩ := Except.exists_of_bind_eq_ok h
    cases hown
    obtain ⟨declared, hdeclared, h⟩ := Except.exists_of_bind_eq_ok h
    exact ⟨f, declared, rfl, Except.forall_of_mapM_eq_ok (fun _ _ _ hok => ⟨_, hok⟩) hdeclared, h⟩

theorem isSome_field?_identifierName (h : t.operations = .ok operations) :
    (t.field? t.identifierName).isSome = true := by
  obtain ⟨f, -, hidentifier, -⟩ := operations_eq_ok h
  rw [identifierName, hidentifier]
  exact List.find?_isSome.mpr ⟨f, List.mem_of_find?_eq_some hidentifier, beq_self_eq_true _⟩

/-- The operations of a type are declared, or implied by it. -/
theorem mem_operations (h : t.operations = .ok operations) (hop : op ∈ operations) :
    t.Declares op ∨ t.Implies operations op := by
  obtain ⟨-, declared, -, hdeclared, happended⟩ := operations_eq_ok h
  rcases mem_of_appendOperations happended op hop with himplicit | hown
  · obtain ⟨_, _, taken, htaken, rfl⟩ := mem_implicitOperations himplicit
    have hfree : ∀ name ∈ taken, name ∈ t.fields.map (·.name) ∧ name ≠ t.identifierName ∧
        name ∉ declared.flatMap (·.assign) := by
      intro name hmem
      obtain ⟨hfield, hleft⟩ := List.mem_filter.mp (htaken hmem)
      rw [Bool.and_eq_true, bne_iff_ne, Bool.not_eq_true', List.contains_eq_mem,
        decide_eq_false_iff_not] at hleft
      exact ⟨hfield, hleft⟩
    refine .inr ⟨rfl, rfl, fun name hmem => ⟨(hfree name hmem).2.1, ?_⟩,
      fun name hmem other hother hexplicit hclaimed => (hfree name hmem).2.2 ?_⟩
    · obtain ⟨g, hg, rfl⟩ := List.mem_map.mp (hfree name hmem).1
      exact List.find?_isSome.mpr ⟨g, hg, beq_self_eq_true _⟩
    · rcases mem_of_appendOperations happended other hother with himplicit | hown
      · obtain ⟨_, _, _, _, rfl⟩ := mem_implicitOperations himplicit
        cases hexplicit
      · exact List.mem_flatMap.mpr ⟨other, hown, hclaimed⟩
  · obtain ⟨text, htext⟩ := hdeclared op hown
    exact .inl (declares_of_declaredOperation htext)

/-- What holds of no values and of those that maps spell holds of the values of all operations. -/
theorem set_of_operations {p : Keyed Json → Prop} (hnil : p [])
    (hentries : ∀ {raw set}, Descriptor.ClosesOnce raw → Descriptor.entries raw = .ok set → p set)
    (h : t.operations = .ok operations) : ∀ op ∈ operations, p op.set := by
  intro op hop
  rcases mem_operations h hop with hdeclares | himplies
  · obtain ⟨text, d, hd, hset⟩ := hdeclares.spelled
    rw [hset]
    exact Descriptor.set_of_ofText hentries hnil hd
  · rw [himplies.set]
    exact hnil

theorem inRange_of_operations (h : t.operations = .ok operations) :
    ∀ op ∈ operations, Json.InRange (.obj op.set) :=
  set_of_operations (.obj fun _ hmem => absurd hmem List.not_mem_nil)
    (fun _ => Descriptor.inRange_of_entries) h

end DocumentType

namespace Catalog

theorem inRange_of_addTypes {types : List DocumentType} {before after : Keyed (List Operation)}
    (hbefore : ∀ entry ∈ before, ∀ op ∈ entry.2, Json.InRange (.obj op.set))
    (h : addTypes before types = .ok after) :
    ∀ entry ∈ after, ∀ op ∈ entry.2, Json.InRange (.obj op.set) := by
  induction types generalizing before with
  | nil =>
    cases h
    exact hbefore
  | cons t types ih =>
    unfold addTypes at h
    obtain ⟨operations, hoperations, h⟩ := Except.exists_of_bind_eq_ok h
    refine ih (fun entry hentry => ?_) h
    rcases Keyed.mem_insert hentry with rfl | hentry
    · exact DocumentType.inRange_of_operations hoperations
    · exact hbefore entry hentry

/-- The mutations of the catalog of a schema set values whose numbers fit. -/
theorem inRange_of_ofSchema {space : String} {s : Schema} {c : Catalog}
    (h : ofSchema space s = .ok c) (other : String) {name : String} {entry : MutationEntry}
    (hentry : (c.resolvers other).get? name = some entry) :
    Json.InRange (.obj entry.operation.set) := by
  obtain ⟨byType, hbyType, h⟩ := Except.exists_of_bind_eq_ok h
  cases h
  have hall := inRange_of_addTypes (fun _ hmem => absurd hmem List.not_mem_nil) hbyType
  unfold resolvers at hentry
  split at hentry
  · have hmem := (Keyed.mem_union (Keyed.mem_of_get? hentry)).resolve_left List.not_mem_nil
    obtain ⟨⟨type, operations⟩, hoperations, hmem⟩ := List.mem_flatMap.mp hmem
    obtain ⟨op, hop, heq⟩ := List.mem_map.mp hmem
    cases heq
    exact hall _ hoperations op hop
  · cases hentry

end Catalog

end DocumentEngine
