import RowQuery.Proofs.Store.Families

/-!
# Queries brought up to date

Before and after each call the queries inside the receiver are brought up to date. A query keeps its
name then, so keys stay the keys that they are, and entries their kinds. What a store holds now is the
same whether it was brought up to date before or not.
-/

namespace RowQuery

set_option autoImplicit false

namespace Value

variable {f g : Text → QueryHandle}

mutual

/-- Queries are told apart by their names, so an update changes no key. -/
theorem key_withQueries (hf : ∀ n, (f n).name = n) : ∀ v : Value, (v.withQueries f).key = v.key
  | query q => by rw [withQueries, key, key, hf]
  | list items | set items | mapping items => rfl
  | tuple items => by rw [withQueries, key, key, keys_allWithQueries hf items]
  | null | bool _ | int _ | float _ | text _ | octets _ | word _ | filter _ | circle _ | rectangle _
  | store .. => rfl

theorem keys_allWithQueries (hf : ∀ n, (f n).name = n) :
    ∀ vs : List Value, keys (allWithQueries f vs) = keys vs
  | [] => rfl
  | v :: vs => by
    rw [allWithQueries, keys, keys, key_withQueries hf v, keys_allWithQueries hf vs]

end

mutual

theorem isFinite_withQueries : ∀ v : Value, (v.withQueries f).isFinite = v.isFinite
  | query q => rfl
  | list items | tuple items => by
    rw [withQueries, isFinite, isFinite, allFinite_withQueries items]
  | mapping members => by
    rw [withQueries, isFinite, isFinite, allMembersFinite_withQueries members]
  | set _ | null | bool _ | int _ | float _ | text _ | octets _ | word _ | filter _ | circle _
  | rectangle _ | store .. => rfl

theorem allFinite_withQueries : ∀ vs : List Value, allFinite (allWithQueries f vs) = allFinite vs
  | [] => rfl
  | v :: vs => by
    rw [allWithQueries, allFinite, allFinite, isFinite_withQueries v, allFinite_withQueries vs]

theorem allMembersFinite_withQueries :
    ∀ ms : List (Value × Value), allMembersFinite (membersWithQueries f ms) = allMembersFinite ms
  | [] => rfl
  | (_, v) :: ms => by
    rw [membersWithQueries, allMembersFinite, allMembersFinite, isFinite_withQueries v,
      allMembersFinite_withQueries ms]

end

mutual

/-- Only the last update counts. -/
theorem withQueries_withQueries (hg : ∀ n, (g n).name = n) :
    ∀ v : Value, (v.withQueries g).withQueries f = v.withQueries f
  | query q => by rw [withQueries, withQueries, withQueries, hg]
  | list items => by
    rw [withQueries, withQueries, withQueries, allWithQueries_allWithQueries hg items]
  | tuple items => by
    rw [withQueries, withQueries, withQueries, allWithQueries_allWithQueries hg items]
  | set items => by
    rw [withQueries, withQueries, withQueries, allWithQueries_allWithQueries hg items]
  | mapping members => by
    rw [withQueries, withQueries, withQueries, membersWithQueries_membersWithQueries hg members]
  | null | bool _ | int _ | float _ | text _ | octets _ | word _ | filter _ | circle _ | rectangle _
  | store .. => rfl

theorem allWithQueries_allWithQueries (hg : ∀ n, (g n).name = n) :
    ∀ vs : List Value, allWithQueries f (allWithQueries g vs) = allWithQueries f vs
  | [] => rfl
  | v :: vs => by
    rw [allWithQueries, allWithQueries, allWithQueries, withQueries_withQueries hg v,
      allWithQueries_allWithQueries hg vs]

theorem membersWithQueries_membersWithQueries (hg : ∀ n, (g n).name = n) :
    ∀ ms : List (Value × Value),
      membersWithQueries f (membersWithQueries g ms) = membersWithQueries f ms
  | [] => rfl
  | (k, v) :: ms => by
    rw [membersWithQueries, membersWithQueries, membersWithQueries, withQueries_withQueries hg k,
      withQueries_withQueries hg v, membersWithQueries_membersWithQueries hg ms]

end

theorem allWithQueries_eq_map (vs : List Value) : allWithQueries f vs = vs.map (withQueries f) := by
  induction vs with
  | nil => rfl
  | cons v vs ih => rw [allWithQueries, List.map_cons, ih]

theorem isScalar_withQueries (v : Value) : Store.isScalar (v.withQueries f) = Store.isScalar v := by
  cases v <;> rfl

end Value

namespace Entry

variable {f g : Text → QueryHandle}

theorem kind_withQueries (e : Entry) : (e.withQueries f).kind = e.kind := by
  cases e <;> rfl

theorem withQueries_withQueries (hg : ∀ n, (g n).name = n) (e : Entry) :
    (e.withQueries g).withQueries f = e.withQueries f := by
  cases e with
  | scalar v => exact congrArg scalar (Value.withQueries_withQueries hg v)
  | commaList vs => exact congrArg commaList (Value.allWithQueries_allWithQueries hg vs)
  | rowFilters => rfl

end Entry

namespace Store

variable {f g : Text → QueryHandle}

theorem withQueries_withQueries (hg : ∀ n, (g n).name = n) (s : Store) :
    (s.withQueries g).withQueries f = s.withQueries f := by
  have hentry : ∀ e : Value × Entry,
      ((e.1.withQueries g).withQueries f, (e.2.withQueries g).withQueries f) =
        (e.1.withQueries f, e.2.withQueries f) := fun e => by
    rw [Value.withQueries_withQueries hg, Entry.withQueries_withQueries hg]
  simp [Store.withQueries, hentry]

theorem withQueries_of_empty {s : Store} (h : s.entries = []) : s.withQueries f = s := by
  obtain ⟨key, entries⟩ := s
  cases h
  rfl

end Store

namespace Family

theorem name_handleWithin (family : Family) (depth : Nat) (name : Text) :
    (family.handleWithin depth name).name = name := by
  cases depth <;> rfl

theorem name_handle (family : Family) (name : Text) : (family.handle name).name = name :=
  family.name_handleWithin _ name

/-- A store as it is now, with the queries in it brought up to date. -/
def current (family : Family) (name : Text) : Store := (family.get name).withQueries family.handle

theorem refresh_eq (family : Family) (self : Text) :
    family.refresh self = family.put self (family.current self) := rfl

theorem get_refresh_self (family : Family) (self : Text) :
    (family.refresh self).get self = family.current self := get_put_same _ _ _

/-- Whether a store was brought up to date before does not show in the queries. -/
theorem handleWithin_refresh (family : Family) (self : Text) (depth : Nat) :
    (family.refresh self).handleWithin depth = family.handleWithin depth := by
  induction depth with
  | zero => rfl
  | succ depth ih =>
    funext name
    have hstore : ((family.refresh self).get name).withQueries
        ((family.refresh self).handleWithin depth) =
          (family.get name).withQueries (family.handleWithin depth) := by
      rw [ih]
      by_cases hn : name = self
      · rw [hn, get_refresh_self, current, Store.withQueries_withQueries family.name_handle]
      · rw [refresh_eq, get_put_other hn]
    simp only [handleWithin, hstore]

theorem names_insertMember {members : List (Text × Store)} {name : Text}
    (h : name ∈ members.map Prod.fst) (s : Store) :
    (insertMember members name s).map Prod.fst = members.map Prod.fst := by
  induction members with
  | nil => cases h
  | cons m ms ih =>
    obtain ⟨n, t⟩ := m
    rw [insertMember]
    split
    · rfl
    · next hn =>
      have hmem : name ∈ ms.map Prod.fst := (List.mem_cons.1 h).resolve_left (Ne.symm hn)
      rw [List.map_cons, ih hmem, List.map_cons]

theorem get_of_notMem {family : Family} {name : Text}
    (h : name ∉ family.members.map Prod.fst) : family.get name = Store.empty defaultKey := by
  obtain ⟨members⟩ := family
  change findMember members name = _
  induction members with
  | nil => rfl
  | cons m ms ih =>
    obtain ⟨n, t⟩ := m
    obtain ⟨hn, hms⟩ := not_or.1 (mt List.mem_cons.2 h)
    rw [findMember_cons, if_neg (Ne.symm hn)]
    exact ih hms

/-- An update of one store changes the text of no query. -/
theorem handle_refresh {family : Family} {self : Text} (h : self ∈ family.members.map Prod.fst) :
    (family.refresh self).handle = family.handle := by
  have hnames : (family.refresh self).members.map Prod.fst = family.members.map Prod.fst :=
    names_insertMember h _
  have hlength : (family.refresh self).members.length = family.members.length := by
    simpa using congrArg List.length hnames
  have hdepth : (family.refresh self).depth = family.depth := by rw [depth, depth, hlength]
  funext name
  rw [handle, handle, hdepth, handleWithin_refresh]

theorem current_refresh_eq (family : Family) (self : Text) :
    (family.refresh self).current self =
      (family.get self).withQueries (family.refresh self).handle := by
  rw [current, get_refresh_self, current, Store.withQueries_withQueries family.name_handle]

/-- A store that is brought up to date is what it was now. -/
theorem current_refresh (family : Family) (self : Text) :
    (family.refresh self).current self = family.current self := by
  rw [current_refresh_eq]
  -- The update may make the store a member, and then the depth of the family changes.
  by_cases hmem : self ∈ family.members.map Prod.fst
  · rw [handle_refresh hmem, current]
  · have hempty : (family.get self).entries = [] := by rw [get_of_notMem hmem]; rfl
    rw [Store.withQueries_of_empty hempty, current, Store.withQueries_of_empty hempty]

end Family

end RowQuery
