import RowQuery.Json.Reader
import RowQuery.Proofs.Fallible
import RowQuery.Proofs.Json.Shape

/-!
# Repeated keys

The reader settles every object that it reads: of a repeated key the first place and the last data
remain. So whatever the reader returns is settled data.
-/

namespace RowQuery.Json

set_option autoImplicit false

theorem mem_insertMember {ms : List (Text × Json)} {k : Text} {j : Json} {m : Text × Json}
    (hm : m ∈ insertMember ms k j) : m.1 = k ∨ m ∈ ms := by
  induction ms with
  | nil => exact .inl (congrArg Prod.fst (List.mem_singleton.1 hm))
  | cons n ms ih =>
    obtain ⟨l, i⟩ := n
    rw [insertMember] at hm
    split at hm
    · next hl =>
      rcases List.mem_cons.1 hm with rfl | hm
      · exact .inl hl
      · exact .inr (List.mem_cons_of_mem _ hm)
    · rcases List.mem_cons.1 hm with rfl | hm
      · exact .inr List.mem_cons_self
      · exact (ih hm).imp_right (List.mem_cons_of_mem _)

/-- Inserting a member repeats no key. -/
theorem settledMembers_insertMember {ms : List (Text × Json)} {k : Text} {j : Json}
    (hs : SettledMembers ms) (hj : j.Settled) : SettledMembers (insertMember ms k j) := by
  induction ms with
  | nil => exact ⟨fun _ hm => (nomatch hm), hj, trivial⟩
  | cons n ms ih =>
    obtain ⟨l, i⟩ := n
    obtain ⟨hl, hi, hms⟩ := hs
    rw [insertMember]
    split
    · exact ⟨hl, hj, hms⟩
    · next hlk =>
      refine ⟨fun m hm => ?_, hi, ih hms⟩
      rcases mem_insertMember hm with he | hm
      · exact he ▸ Ne.symm hlk
      · exact hl m hm

/-- The members that remain are settled when the data of all members is. -/
theorem settledMembers_settle {ms : List (Text × Json)} (hs : ∀ m ∈ ms, m.2.Settled) :
    SettledMembers (settle ms) := by
  have hfold : ∀ kept : List (Text × Json), SettledMembers kept →
      SettledMembers (ms.foldl (fun settled m => insertMember settled m.1 m.2) kept) := by
    induction ms with
    | nil => exact fun _ hk => hk
    | cons m ms ih =>
      intro kept hk
      exact ih (fun n hn => hs n (List.mem_cons_of_mem _ hn)) _
        (settledMembers_insertMember hk (hs m List.mem_cons_self))
  exact hfold [] trivial

theorem settled_readNumber {t rest : Text} {j : Json} (h : readNumber t = .ok (j, rest)) :
    j.Settled := by
  unfold readNumber at h
  split at h
  split at h
  · cases h
  · split at h
    split at h
    · split at h
      · cases h
      · cases h; trivial
    · cases h; trivial

theorem settled_readScalar {t rest : Text} {j : Json} (h : readScalar t = .ok (j, rest)) :
    j.Settled := by
  unfold readScalar at h
  split at h
  · next word i hw =>
    cases h
    have hall : ∀ w ∈ words, w.2.Settled := by
      intro w hw
      simp only [words, List.mem_cons, List.not_mem_nil, or_false] at hw
      rcases hw with rfl | rfl | rfl | rfl | rfl | rfl <;> trivial
    exact hall _ (List.mem_of_find?_eq_some hw)
  · exact settled_readNumber h

mutual

/-- The data that is read repeats no key in an object. -/
theorem settled_readValue : ∀ (fuel : Nat) (t rest : Text) (j : Json),
    readValue fuel t = .ok (j, rest) → j.Settled
  | 0, _, _, _, h => nomatch h
  | fuel + 1, t, rest, j, h => by
    rw [readValue.eq_def] at h
    simp only at h
    split at h
    · obtain ⟨p, -, he⟩ := map_eq_ok h
      cases he
      trivial
    · split at h
      · cases h
        trivial
      · obtain ⟨p, hp, he⟩ := map_eq_ok h
        cases he
        exact settled_readItems fuel _ _ _ hp
    · split at h
      · cases h
        trivial
      · obtain ⟨p, hp, he⟩ := map_eq_ok h
        cases he
        exact settledMembers_settle (settled_readMembers fuel _ _ _ hp)
    · exact settled_readScalar h

theorem settled_readItems : ∀ (fuel : Nat) (t rest : Text) (js : List Json),
    readItems fuel t = .ok (js, rest) → SettledItems js
  | 0, _, _, _, h => nomatch h
  | fuel + 1, t, rest, js, h => by
    rw [readItems.eq_def] at h
    simp only at h
    split at h
    · cases h
    · next j after hj =>
      have hs := settled_readValue fuel _ _ _ hj
      split at h
      · cases h
        exact ⟨hs, trivial⟩
      · obtain ⟨p, hp, he⟩ := map_eq_ok h
        cases he
        exact ⟨hs, settled_readItems fuel _ _ _ hp⟩
      · cases h

theorem settled_readMembers : ∀ (fuel : Nat) (t rest : Text) (ms : List (Text × Json)),
    readMembers fuel t = .ok (ms, rest) → ∀ m ∈ ms, m.2.Settled
  | 0, _, _, _, h => nomatch h
  | fuel + 1, t, rest, ms, h => by
    rw [readMembers.eq_def] at h
    simp only at h
    split at h
    · split at h
      · cases h
      · split at h
        · split at h
          · cases h
          · next j after hj =>
            have hs := settled_readValue fuel _ _ _ hj
            split at h
            · cases h
              exact List.forall_mem_singleton.2 hs
            · obtain ⟨p, hp, he⟩ := map_eq_ok h
              cases he
              exact List.forall_mem_cons.2 ⟨hs, settled_readMembers fuel _ _ _ hp⟩
            · cases h
        · cases h
    · cases h

end

/-- Data that was read is settled. -/
theorem settled_read {t : Text} {j : Json} (h : read t = .ok j) : j.Settled := by
  unfold read at h
  split at h
  · next i hi =>
    cases h
    unfold readAll at hi
    split at hi
    · cases hi
    · split at hi
      · cases hi
      · next hv =>
        split at hi
        · cases hi
          exact settled_readValue _ _ _ _ hv
        · cases hi
  · cases h
  · cases h

end RowQuery.Json
