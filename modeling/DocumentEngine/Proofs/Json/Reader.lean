import DocumentEngine.Proofs.Keyed
import DocumentEngine.Proofs.Number.Text
import DocumentEngine.Store.Basic

/-!
The numbers of documents that were read. What a text of a file spells as an integer fits 64 bits,
so that every number of a stored document is loosely equal to its text.
-/

namespace DocumentEngine

/-- An integer of 64 bits with a sign fits the kinds of numbers. -/
theorem Number.inRange_of_signed? {cs : List Char} {n : Int} (h : signed? cs = some n) :
    (Number.int n).InRange := by
  obtain ⟨-, hrange⟩ := Option.filter_eq_some_iff.mp h
  simp only [Bool.and_eq_true, decide_eq_true_eq] at hrange
  have hmax : maxSigned = 9223372036854775807 := rfl
  have hunsigned : maxUnsigned = 18446744073709551615 := rfl
  exact ⟨hrange.1, by omega⟩

namespace Json

theorem inRange_of_read? {numeral : Numeral} {n : Number} (h : numeral.read? = some n) :
    n.InRange := by
  unfold Numeral.read? at h
  dsimp only at h
  split at h
  · rename_i value hinteger
    cases h
    have hsigned : Number.minSigned = -9223372036854775808 := rfl
    have hunsigned : Number.maxUnsigned = 18446744073709551615 := rfl
    split at hinteger
    · cases hinteger
    · split at hinteger
      · split at hinteger
        · cases hinteger
          exact ⟨by omega, by assumption⟩
        · cases hinteger
      · split at hinteger
        · rename_i hrange
          cases hinteger
          simp only [Bool.and_eq_true, decide_eq_true_eq] at hrange
          exact ⟨by omega, by omega⟩
        · cases hinteger
  · simp only [Option.bind_eq_bind, Option.bind_eq_some_iff] at h
    obtain ⟨rank, -, d, -, hd⟩ := h
    cases hd
    trivial

theorem inRange_of_toJson? {depth : Nat} {w : Written} {n : Number}
    (h : w.toJson? depth = some (.num n)) : n.InRange := by
  cases w with
  | num numeral =>
    rw [Written.toJson?] at h
    obtain ⟨found, hfound, heq⟩ := Option.map_eq_some_iff.mp h
    cases heq
    exact inRange_of_read? hfound
  | null => simp [Written.toJson?] at h
  | bool b => simp [Written.toJson?] at h
  | str s => simp [Written.toJson?] at h
  | arr items => cases depth <;> simp [Written.toJson?] at h
  | obj members => cases depth <;> simp [Written.toJson?] at h

theorem mem_membersToJson? {depth : Nat} {members : List (Option String × Written)}
    {entries : List (String × Json)} (h : Written.membersToJson? depth members = some entries)
    {entry : String × Json} (hentry : entry ∈ entries) :
    ∃ w : Written, w.toJson? depth = some entry.2 := by
  induction members generalizing entries with
  | nil =>
    rw [Written.membersToJson?] at h
    cases h
    cases hentry
  | cons member members ih =>
    obtain ⟨k, w⟩ := member
    rw [Written.membersToJson?] at h
    simp only [Option.bind_eq_bind, Option.bind_eq_some_iff] at h
    obtain ⟨key, -, v, hv, rest, hrest, heq⟩ := h
    cases heq
    rcases List.mem_cons.mp hentry with rfl | hentry
    · exact ⟨w, hv⟩
    · exact ih hrest hentry

end Json

/-- Every number of a stored document fits its kind. -/
theorem Store.inRange_of_decode {path : Path} {text : String} {doc : Document}
    (h : decode path text = .ok doc) {key : String} {n : Number}
    (hn : doc.get? key = some (.num n)) : n.InRange := by
  have hread : Json.ofText? text = some (.obj doc) := by
    unfold decode at h
    split at h
    · rename_i found hfound
      cases h
      exact hfound
    · cases h
    · cases h
  unfold Json.ofText? at hread
  obtain ⟨w, -, hw⟩ := Option.bind_eq_some_iff.mp hread
  cases w with
  | obj members =>
    rw [Json.maxDepth, Json.Written.toJson?] at hw
    obtain ⟨entries, hentries, heq⟩ := Option.map_eq_some_iff.mp hw
    cases heq
    obtain ⟨w, hw⟩ := Json.mem_membersToJson? hentries (Keyed.mem_of_get?_ofList hn)
    exact Json.inRange_of_toJson? hw
  | num numeral => simp [Json.Written.toJson?] at hw
  | null => simp [Json.Written.toJson?] at hw
  | bool b => simp [Json.Written.toJson?] at hw
  | str s => simp [Json.Written.toJson?] at hw
  | arr items => simp [Json.maxDepth, Json.Written.toJson?] at hw

end DocumentEngine
