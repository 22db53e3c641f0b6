import Mathlib.Data.List.Nodup

set_option autoImplicit false

/-! # Records by name

Two programs exchange a record as a map from names to written values. A layout says under which
names the fields of a record type stand; for a record inside a record, the name of the field comes
in front of the names inside. A map transmits a record if it has exactly these names, and the record is what
its values denote.

A map that is written entry by entry transmits the record if no entry overwrites another
(`Layout.transmits_insertMany`). So the names have to be distinct, also where some of them are not
known: it is enough that they begin differently (`nodup_blocks`).
-/

namespace Zolana

/-! ## Layouts -/

/-- Where the fields of an `α` stand among named values of type `V`. -/
structure Layout (V α : Type) where
  names : List String
  read : (String → Option V) → Option α
  /-- No name can be left out. -/
  needs : ∀ {find : String → Option V} {a : α}, read find = some a →
    ∀ name ∈ names, (find name).isSome

namespace Layout

variable {V α β : Type}

/-- One value. -/
def value (name : String) (decode : V → Option α) : Layout V α where
  names := [name]
  read find := (find name).bind decode
  needs := by
    intro find a h name' hname
    obtain ⟨v, hv, -⟩ := Option.bind_eq_some_iff.mp h
    rw [List.mem_singleton.mp hname, hv]
    rfl

/-- A record in the field `name`. -/
def under (name : String) (L : Layout V α) : Layout V α where
  names := L.names.map (name ++ "_" ++ ·)
  read find := L.read fun field => find (name ++ "_" ++ field)
  needs := by
    intro find a h name' hname
    obtain ⟨field, hfield, rfl⟩ := List.mem_map.mp hname
    exact L.needs h field hfield

/-- The fields of a record are laid out one after the other. -/
instance : Applicative (Layout V) where
  pure a := ⟨[], fun _ => some a, fun _ _ hname => absurd hname List.not_mem_nil⟩
  map f L :=
    { names := L.names
      read := fun find => (L.read find).map f
      needs := by
        intro find b h
        obtain ⟨a, ha, -⟩ := Option.map_eq_some_iff.mp h
        exact L.needs ha }
  seq F L :=
    { names := F.names ++ (L ()).names
      read := fun find => (F.read find).bind fun f => ((L ()).read find).map f
      needs := by
        intro find b h name hname
        obtain ⟨f, hf, h⟩ := Option.bind_eq_some_iff.mp h
        obtain ⟨a, ha, -⟩ := Option.map_eq_some_iff.mp h
        rcases List.mem_append.mp hname with hname | hname
        · exact F.needs hf name hname
        · exact (L ()).needs ha name hname }

@[simp] theorem names_under (name : String) (L : Layout V α) :
    (L.under name).names = L.names.map (name ++ "_" ++ ·) := rfl

@[simp] theorem names_map (f : α → β) (L : Layout V α) : (f <$> L).names = L.names := rfl

@[simp] theorem names_seq (F : Layout V (α → β)) (L : Layout V α) :
    (F <*> L).names = F.names ++ L.names := rfl

theorem read_value {name : String} {decode : V → Option α} {find : String → Option V} {v : V}
    (h : find name = some v) : (value name decode).read find = decode v := by
  show (find name).bind decode = _
  rw [h]
  rfl

@[simp] theorem read_under (name : String) (L : Layout V α) (find : String → Option V) :
    (L.under name).read find = L.read fun field => find (name ++ "_" ++ field) := rfl

/-- A record two fields deep. -/
theorem read_under_under {name inner path : String} (hpath : name ++ "_" ++ inner = path)
    {L : Layout V α} {find : String → Option V} {a : α}
    (h : L.read (fun field => find (path ++ "_" ++ field)) = some a) :
    (L.under inner).read (fun field => find (name ++ "_" ++ field)) = some a := by
  subst hpath
  simpa only [read_under, String.append_assoc] using h

@[simp] theorem read_map (f : α → β) (L : Layout V α) (find : String → Option V) :
    (f <$> L).read find = (L.read find).map f := rfl

@[simp] theorem read_seq (F : Layout V (α → β)) (L : Layout V α) (find : String → Option V) :
    (F <*> L).read find = (F.read find).bind fun f => (L.read find).map f := rfl

/-! ## Written records -/

section Written

variable {W : Type} (denotes : W → V → Prop)

/-- The map is the record by name. Every value that is written denotes something, and whoever looks
up what it denotes reads the record. -/
structure Transmits (L : Layout V α) (map : Std.HashMap String W) (a : α) : Prop where
  names : ∀ name, name ∈ map ↔ name ∈ L.names
  written : ∀ (name : String) w, map[name]? = some w → ∃ v, denotes w v
  read : ∀ find : String → Option V,
    (∀ (name : String) w, map[name]? = some w → ∃ v, denotes w v ∧ find name = some v) →
    L.read find = some a

/-- The lookup finds what the entries denote. -/
def Finds (find : String → Option V) (entries : List (String × W)) : Prop :=
  ∀ e ∈ entries, ∃ v, denotes e.2 v ∧ find e.1 = some v

variable {denotes}

@[simp] theorem finds_nil (find : String → Option V) : Finds denotes find [] := by
  intro e he
  cases he

@[simp] theorem finds_cons {find : String → Option V} {name : String} {w : W}
    {entries : List (String × W)} :
    Finds denotes find ((name, w) :: entries) ↔
      (∃ v, denotes w v ∧ find name = some v) ∧ Finds denotes find entries :=
  List.forall_mem_cons

@[simp] theorem finds_append {find : String → Option V} {entries entries' : List (String × W)} :
    Finds denotes find (entries ++ entries') ↔
      Finds denotes find entries ∧ Finds denotes find entries' :=
  List.forall_mem_append

/-- Entries that denote something are found by some lookup. -/
theorem exists_finds {entries : List (String × W)} (hnodup : (entries.map Prod.fst).Nodup)
    (hdenotes : ∀ e ∈ entries, ∃ v, denotes e.2 v) :
    ∃ find : String → Option V, Finds denotes find entries ∧
      ∀ name, (find name).isSome → name ∈ entries.map Prod.fst := by
  induction entries with
  | nil => exact ⟨fun _ => none, finds_nil _, fun _ h => absurd h Bool.false_ne_true⟩
  | cons e entries ih =>
      obtain ⟨name, w⟩ := e
      obtain ⟨hfirst, hdenotes⟩ := List.forall_mem_cons.mp hdenotes
      rw [List.map_cons, List.nodup_cons] at hnodup
      obtain ⟨find, hfind, hnames⟩ := ih hnodup.2 hdenotes
      obtain ⟨v, hv⟩ := hfirst
      refine ⟨Function.update find name (some v), finds_cons.mpr ⟨⟨v, hv, ?_⟩, ?_⟩, ?_⟩
      · exact Function.update_self ..
      · intro e' he'
        have hne : e'.1 ≠ name := by
          intro hsame
          have hmem : e'.1 ∈ entries.map Prod.fst := List.mem_map_of_mem he'
          rw [hsame] at hmem
          exact hnodup.1 hmem
        rw [Function.update_of_ne hne]
        exact hfind e' he'
      · intro name' hsome
        rw [List.map_cons, List.mem_cons]
        by_cases hsame : name' = name
        · exact .inl hsame
        · rw [Function.update_of_ne hsame] at hsome
          exact .inr (hnames name' hsome)

/-- What is written under distinct names is looked up again. -/
theorem getElem?_insertMany {entries : List (String × W)} (hnodup : (entries.map Prod.fst).Nodup)
    {name : String} {w : W} :
    ((∅ : Std.HashMap String W).insertMany entries)[name]? = some w ↔ (name, w) ∈ entries := by
  have hdistinct : entries.Pairwise fun e e' => (e.1 == e'.1) = false := by
    refine (List.pairwise_map.mp hnodup).imp ?_
    intro e e' hne
    exact beq_false_of_ne hne
  have hlookup : ∀ e ∈ entries,
      ((∅ : Std.HashMap String W).insertMany entries)[e.1]? = some e.2 := fun e he =>
    Std.HashMap.getElem?_insertMany_list_of_mem (beq_self_eq_true e.1) hdistinct he
  constructor
  · intro h
    have hmem : name ∈ (∅ : Std.HashMap String W).insertMany entries :=
      Std.HashMap.mem_iff_isSome_getElem?.mpr (by rw [h]; rfl)
    rw [Std.HashMap.mem_insertMany_list, List.contains_iff_mem] at hmem
    obtain ⟨e, he, rfl⟩ := List.mem_map.mp (hmem.resolve_left Std.HashMap.not_mem_empty)
    rw [hlookup e he, Option.some.injEq] at h
    rw [← h]
    exact he
  · intro he
    exact hlookup _ he

/-- What is written under distinct names arrives. -/
theorem transmits_insertMany {L : Layout V α} {entries : List (String × W)} {a : α}
    (hnodup : (entries.map Prod.fst).Nodup) (hnames : ∀ name ∈ entries.map Prod.fst, name ∈ L.names)
    (hdenotes : ∀ e ∈ entries, ∃ v, denotes e.2 v)
    (hread : ∀ find, Finds denotes find entries → L.read find = some a) :
    L.Transmits denotes ((∅ : Std.HashMap String W).insertMany entries) a where
  names := by
    intro name
    rw [Std.HashMap.mem_insertMany_list, List.contains_iff_mem]
    constructor
    · intro hname
      exact hnames name (hname.resolve_left Std.HashMap.not_mem_empty)
    · intro hname
      obtain ⟨find, hfind, hsome⟩ := exists_finds hnodup hdenotes
      exact .inr (hsome name (L.needs (hread find hfind) name hname))
  written := by
    intro name w hw
    exact hdenotes _ ((getElem?_insertMany hnodup).mp hw)
  read := by
    intro find hfind
    refine hread find ?_
    rintro ⟨name, w⟩ he
    exact hfind name w ((getElem?_insertMany hnodup).mpr he)

end Written

end Layout

/-! ## Distinct names -/

/-- Neither string is the beginning of the other. -/
def Apart (p q : String) : Prop :=
  ¬p.toList <+: q.toList ∧ ¬q.toList <+: p.toList

instance : DecidableRel Apart := fun p q =>
  inferInstanceAs (Decidable (¬p.toList <+: q.toList ∧ ¬q.toList <+: p.toList))

/-- Then no string begins with both. -/
theorem Apart.append_ne {p q : String} (h : Apart p q) (a b : String) : p ++ a ≠ q ++ b := by
  intro heq
  have hlist : p.toList ++ a.toList = q.toList ++ b.toList := by
    rw [← String.toList_append, ← String.toList_append, heq]
  have hp : p.toList <+: p.toList ++ a.toList := List.prefix_append _ _
  have hq : q.toList <+: p.toList ++ a.toList := ⟨b.toList, hlist.symm⟩
  rcases List.prefix_or_prefix_of_prefix hp hq with hpq | hqp
  · exact h.1 hpq
  · exact h.2 hqp

/-- Names with one beginning. -/
structure Block where
  beginning : String
  endings : List String

def Block.names (b : Block) : List String := b.endings.map (b.beginning ++ ·)

/-- One name. -/
def Block.single (name : String) : Block := ⟨name, [""]⟩

/-- The names of a record in the field `name`. -/
def Block.under (name : String) (fields : List String) : Block := ⟨name ++ "_", fields⟩

@[simp] theorem Block.names_single (name : String) : (Block.single name).names = [name] := by
  simp [Block.single, Block.names]

@[simp] theorem Block.names_under (name : String) (fields : List String) :
    (Block.under name fields).names = fields.map (name ++ "_" ++ ·) := rfl

theorem Block.nodup_names {b : Block} (h : b.endings.Nodup) : b.names.Nodup := by
  refine h.map ?_
  intro x y hxy
  exact String.append_right_inj b.beginning |>.mp hxy

/-- Blocks with different beginnings have no name in common. -/
theorem nodup_blocks {blocks : List Block} (hapart : (blocks.map Block.beginning).Pairwise Apart)
    (hnodup : ∀ b ∈ blocks, b.endings.Nodup) : (blocks.flatMap Block.names).Nodup := by
  refine List.nodup_flatMap.mpr ⟨fun b hb => Block.nodup_names (hnodup b hb), ?_⟩
  refine (List.pairwise_map.mp hapart).imp ?_
  intro b b' hb name hname hname'
  obtain ⟨x, -, rfl⟩ := List.mem_map.mp hname
  obtain ⟨y, -, hy⟩ := List.mem_map.mp hname'
  exact hb.append_ne x y hy.symm

end Zolana
