import Hotspots.Proofs.Scan.Accesses
import Hotspots.Proofs.Scan.TreeSize
import Mathlib.Data.Set.Card

/-!
# Which attributes count as foreign data

A method reads foreign data at each place with an attribute of a plain name that is another object: neither the instance
or the class of the method, which its first positional parameter names, nor an imported module or the class itself. A
decorator that extends a property of the class reads none, and neither does a call, unless it asks for a property.

The measure differs from this law in two points: it looks for the first parameter only among those that may also be
passed by name, and it takes decorators for reads. `atfd_counts_foreign_iff` says for which classes this makes no
difference to the number of names.
-/

namespace Hotspots.ClassMetrics

open Source (Tree FunctionHead)

/-- The first parameter of a method that is passed by position. -/
def firstPositional? (m : FunctionHead × Tree) : Option String := (m.1.positionalOnly ++ m.1.positional).head?

/-- A decorator of a method extends a property of the class, which a method with the name of the property defined. -/
def ExtendsProperty (own : List String) (m : FunctionHead × Tree) (place : List Nat) (owner field : String) : Prop :=
  (∃ i < m.2.decorators.length, place = [i]) ∧ owner ∈ own ∧ field ∈ ["getter", "setter", "deleter"]

/-- A method of a class with the methods `own` reads an attribute of another object at a place. -/
structure IsForeignRead (known own : List String) (m : FunctionHead × Tree) (place : List Nat) (owner field : String) :
    Prop where
  reads : m.2.Reads place owner field
  ne_self : owner ≠ "self"
  ne_cls : owner ≠ "cls"
  ne_first : isStatic m = false → firstPositional? m ≠ some owner
  unknown : owner ∉ known
  ne_decorator : ¬ExtendsProperty own m place owner field
  accessor : m.2.IsCallee place → ∃ start ∈ ["get", "is", "has"], start.toList <+: field.toList

/-- The measure counts the attribute that a method reads at a place. -/
structure IsCountedRead (known : List String) (m : FunctionHead × Tree) (place : List Nat) (owner field : String) :
    Prop where
  reads : m.2.Reads place owner field
  ne_receiver : owner ∉ receivers m
  unknown : owner ∉ known
  accessor : m.2.IsCallee place → ∃ start ∈ ["get", "is", "has"], start.toList <+: field.toList

/-- A read is counted although it is one of the instance, which a positional-only parameter names, or a decorator. -/
def IsMiscounted (known own : List String) (m : FunctionHead × Tree) (place : List Nat) (owner field : String) : Prop :=
  IsCountedRead known m place owner field ∧
    ((isStatic m = false ∧ m.1.positionalOnly.head? = some owner) ∨ ExtendsProperty own m place owner field)

/-- A foreign read is overlooked: its owner is the first parameter after the positional-only ones. -/
def IsOverlooked (known own : List String) (m : FunctionHead × Tree) (place : List Nat) (owner field : String) : Prop :=
  IsForeignRead known own m place owner field ∧
    isStatic m = false ∧ m.1.positionalOnly ≠ [] ∧ m.1.positional.head? = some owner

/-- The names of the attributes that the methods of a class read in some way. -/
def namesRead (t : Tree) (way : FunctionHead × Tree → List Nat → String → String → Prop) : Set String :=
  {field | ∃ m ∈ methods t, ∃ place owner, way m place owner field}

/-- The names of the attributes that the methods of a class read from other objects. -/
def foreignNames (moduleNames : List String) (name : String) (t : Tree) : Set String :=
  namesRead t (IsForeignRead (name :: moduleNames) (methodNames t))

/-- The names of the attributes that are counted. -/
def countedNames (moduleNames : List String) (name : String) (t : Tree) : Set String :=
  namesRead t (IsCountedRead (name :: moduleNames))

/-- The names of the attributes with a read that should not be counted. -/
def miscountedNames (moduleNames : List String) (name : String) (t : Tree) : Set String :=
  namesRead t (IsMiscounted (name :: moduleNames) (methodNames t))

/-- The names of the attributes with a foreign read that is overlooked. -/
def overlookedNames (moduleNames : List String) (name : String) (t : Tree) : Set String :=
  namesRead t (IsOverlooked (name :: moduleNames) (methodNames t))

variable {known own : List String} {m : FunctionHead × Tree} {place : List Nat} {owner field : String} {t : Tree}

/-! ## The reads of one method -/

/-- An attribute asks for a property if its name starts with a word for that. -/
theorem isAccessor_iff : isAccessor field = true ↔ ∃ start ∈ ["get", "is", "has"], start.toList <+: field.toList := by
  simp [isAccessor, String.startsWith_string_iff, or_assoc]

/-- The measure has the first of the parameters that may also be passed by name for a receiver. -/
theorem mem_receivers_iff : owner ∈ receivers m ↔
    owner = "self" ∨ owner = "cls" ∨ (isStatic m = false ∧ m.1.positional.head? = some owner) := by
  cases hstatic : isStatic m <;> cases hnamed : m.1.positional <;> simp [receivers, hstatic, hnamed, eq_comm]

/-- The names that are counted for a method are those of its counted reads. -/
theorem mem_foreignFields_iff :
    field ∈ foreignFields known m ↔ ∃ place owner, IsCountedRead known m place owner field := by
  simp only [foreignFields, isForeign, List.mem_map, List.mem_filter, Bool.and_eq_true, Bool.or_eq_true,
    Bool.not_eq_true', List.contains_eq_mem, decide_eq_false_iff_not, isAccessor_iff]
  constructor
  · rintro ⟨⟨owner, field, called⟩, ⟨haccess, ⟨hreceiver, hknown⟩, hcalled⟩, rfl⟩
    obtain ⟨place, hreads, hcallee⟩ := (Access.mem_inTree_iff false m.2).1 haccess
    refine ⟨place, owner, hreads, hreceiver, hknown, fun hcall => ?_⟩
    have htrue : called = true := hcallee.2 (.inr hcall)
    exact hcalled.resolve_left (by simp [htrue])
  · rintro ⟨place, owner, h⟩
    obtain ⟨called, haccess, hcallee⟩ := Access.exists_mem_inTree h.reads
    refine ⟨⟨owner, field, called⟩, ⟨haccess, ⟨h.ne_receiver, h.unknown⟩, ?_⟩, rfl⟩
    cases called with
    | false => exact .inl rfl
    | true => exact .inr (h.accessor (hcallee.1 rfl))

/-- A parameter that comes first is a positional-only one, or there is none and it is the first of the others. -/
theorem firstPositional?_eq_some_iff : firstPositional? m = some owner ↔
    m.1.positionalOnly.head? = some owner ∨ (m.1.positionalOnly = [] ∧ m.1.positional.head? = some owner) := by
  rw [firstPositional?]
  cases m.1.positionalOnly <;> simp

/-- The reads that are counted and not foreign are the miscounted ones. -/
theorem isMiscounted_iff : IsMiscounted known own m place owner field ↔
    IsCountedRead known m place owner field ∧ ¬IsForeignRead known own m place owner field := by
  rw [IsMiscounted, and_congr_right_iff]
  intro h
  have hreceiver := h.ne_receiver
  rw [mem_receivers_iff, not_or, not_or] at hreceiver
  obtain ⟨hself, hcls, hfirst⟩ := hreceiver
  constructor
  · rintro (⟨hstatic, hposition⟩ | hdecorator) hforeign
    · exact hforeign.ne_first hstatic (firstPositional?_eq_some_iff.2 (.inl hposition))
    · exact hforeign.ne_decorator hdecorator
  · intro hforeign
    by_contra hother
    rw [not_or] at hother
    refine hforeign ⟨h.reads, hself, hcls, fun hstatic hposition => ?_, h.unknown, hother.2, h.accessor⟩
    rcases firstPositional?_eq_some_iff.1 hposition with honly | ⟨-, hnamed⟩
    · exact hother.1 ⟨hstatic, honly⟩
    · exact hfirst ⟨hstatic, hnamed⟩

/-- The foreign reads that are not counted are the overlooked ones. -/
theorem isOverlooked_iff : IsOverlooked known own m place owner field ↔
    IsForeignRead known own m place owner field ∧ ¬IsCountedRead known m place owner field := by
  rw [IsOverlooked, and_congr_right_iff]
  intro h
  constructor
  · rintro ⟨hstatic, -, hnamed⟩ hcounted
    exact hcounted.ne_receiver (mem_receivers_iff.2 (.inr (.inr ⟨hstatic, hnamed⟩)))
  · intro hcounted
    have hreceiver : owner ∈ receivers m := by
      by_contra hother
      exact hcounted ⟨h.reads, hother, h.unknown, h.accessor⟩
    obtain ⟨hstatic, hnamed⟩ := ((mem_receivers_iff.1 hreceiver).resolve_left h.ne_self).resolve_left h.ne_cls
    refine ⟨hstatic, fun honly => ?_, hnamed⟩
    exact h.ne_first hstatic (firstPositional?_eq_some_iff.2 (.inr ⟨honly, hnamed⟩))

/-! ## The names of a class -/

section Names

variable {way other only : FunctionHead × Tree → List Nat → String → String → Prop} {moduleNames : List String}
  {name : String}

/-- The methods of a class read finitely many names. -/
theorem finite_namesRead (hreads : ∀ m place owner field, way m place owner field → m.2.Reads place owner field) :
    (namesRead t way).Finite := by
  refine (List.finite_toSet ((methods t).flatMap fun m => (Access.inTree false m.2).map (·.field))).subset ?_
  rintro field ⟨m, hm, place, owner, h⟩
  obtain ⟨called, haccess, -⟩ := Access.exists_mem_inTree (hreads m place owner field h)
  exact List.mem_flatMap.2 ⟨m, hm, List.mem_map.2 ⟨_, haccess, rfl⟩⟩

/-- Names that are read in one way and never in another are read in the first way only. -/
theorem namesRead_sdiff
    (honly : ∀ m place owner field, only m place owner field ↔ way m place owner field ∧ ¬other m place owner field) :
    namesRead t way \ namesRead t other = namesRead t only \ namesRead t other := by
  ext field
  simp only [Set.mem_sdiff, and_congr_left_iff]
  intro hother
  constructor
  · rintro ⟨m, hm, place, owner, h⟩
    exact ⟨m, hm, place, owner, (honly ..).2 ⟨h, fun hread => hother ⟨m, hm, place, owner, hread⟩⟩⟩
  · rintro ⟨m, hm, place, owner, h⟩
    exact ⟨m, hm, place, owner, ((honly ..).1 h).1⟩

/-- Names are read in some way only if a method does so. -/
theorem namesRead_eq_empty (h : ∀ m ∈ methods t, ∀ place owner field, ¬way m place owner field) :
    namesRead t way = ∅ := by
  refine Set.eq_empty_iff_forall_notMem.2 ?_
  rintro field ⟨m, hm, place, owner, hread⟩
  exact h m hm place owner field hread

/-- Counted names that are not foreign are miscounted. -/
theorem countedNames_sdiff (moduleNames : List String) (name : String) (t : Tree) :
    countedNames moduleNames name t \ foreignNames moduleNames name t =
      miscountedNames moduleNames name t \ foreignNames moduleNames name t :=
  namesRead_sdiff fun _ _ _ _ => isMiscounted_iff

/-- Foreign names that are not counted are overlooked. -/
theorem foreignNames_sdiff (moduleNames : List String) (name : String) (t : Tree) :
    foreignNames moduleNames name t \ countedNames moduleNames name t =
      overlookedNames moduleNames name t \ countedNames moduleNames name t :=
  namesRead_sdiff fun _ _ _ _ => isOverlooked_iff

/-- The measure of foreign data is the number of the counted names. -/
theorem atfd_eq_ncard (moduleNames : List String) (name : String) (line : Nat) (t : Tree) :
    (ofClass moduleNames name line t).atfd = ((countedNames moduleNames name t).ncard : Nat) := by
  have hnames : countedNames moduleNames name t =
      ((methods t).flatMap (foreignFields (name :: moduleNames))).eraseDups.toFinset := by
    ext field
    simp [countedNames, namesRead, mem_foreignFields_iff]
  rw [hnames, Set.ncard_coe_finset, List.toFinset_card_of_nodup (nodup_eraseDups _)]
  rfl

/-- As many names are counted as are foreign if and only if as many are overlooked as are wrongly counted. -/
theorem ncard_countedNames_eq_iff (moduleNames : List String) (name : String) (t : Tree) :
    (countedNames moduleNames name t).ncard = (foreignNames moduleNames name t).ncard ↔
      (miscountedNames moduleNames name t \ foreignNames moduleNames name t).ncard =
        (overlookedNames moduleNames name t \ countedNames moduleNames name t).ncard := by
  have hcounted : (countedNames moduleNames name t).Finite :=
    finite_namesRead fun _ _ _ _ h => IsCountedRead.reads h
  have hforeign : (foreignNames moduleNames name t).Finite :=
    finite_namesRead fun _ _ _ _ h => IsForeignRead.reads h
  rw [Set.ncard_eq_ncard_iff_ncard_sdiff_eq_ncard_sdiff hcounted hforeign, countedNames_sdiff, foreignNames_sdiff]

/-- Methods that are static or have no positional-only parameters overlook nothing. -/
theorem overlookedNames_eq_empty (h : ∀ m ∈ methods t, isStatic m = true ∨ m.1.positionalOnly = []) :
    overlookedNames moduleNames name t = ∅ := by
  refine namesRead_eq_empty ?_
  rintro m hm place owner field ⟨-, hstatic, honly, -⟩
  rcases h m hm with hstatic' | hnone
  · rw [hstatic] at hstatic'
    cases hstatic'
  · exact honly hnone

/-- If besides no decorator extends a property of the class, nothing is wrongly counted. -/
theorem miscountedNames_eq_empty (h : ∀ m ∈ methods t, isStatic m = true ∨ m.1.positionalOnly = [])
    (hdecorators : ∀ m ∈ methods t, ∀ place owner field, m.2.Reads place owner field →
      ¬ExtendsProperty (methodNames t) m place owner field) : miscountedNames moduleNames name t = ∅ := by
  refine namesRead_eq_empty ?_
  rintro m hm place owner field ⟨hread, ⟨hstatic, hposition⟩ | hdecorator⟩
  · rcases h m hm with hstatic' | hnone
    · rw [hstatic] at hstatic'
      cases hstatic'
    · rw [hnone] at hposition
      cases hposition
  · exact hdecorators m hm place owner field hread.reads hdecorator

/-- The measure of foreign data of a class is the number of names that its methods read from other objects, if and only
if as many names are overlooked as are wrongly counted. This is so if every method is static or has no positional-only
parameters and no decorator extends a property of the class. -/
theorem atfd_counts_foreign_iff (moduleNames : List String) (name : String) (line : Nat) (t : Tree) :
    ((ofClass moduleNames name line t).atfd = ((foreignNames moduleNames name t).ncard : Nat) ↔
      (miscountedNames moduleNames name t \ foreignNames moduleNames name t).ncard =
        (overlookedNames moduleNames name t \ countedNames moduleNames name t).ncard) ∧
    ((∀ m ∈ methods t, isStatic m = true ∨ m.1.positionalOnly = []) →
      (∀ m ∈ methods t, ∀ place owner field, m.2.Reads place owner field →
        ¬ExtendsProperty (methodNames t) m place owner field) →
      (ofClass moduleNames name line t).atfd = ((foreignNames moduleNames name t).ncard : Nat)) := by
  rw [atfd_eq_ncard, Int.ofNat_inj, ncard_countedNames_eq_iff]
  refine ⟨Iff.rfl, fun hparameters hdecorators => ?_⟩
  rw [miscountedNames_eq_empty hparameters hdecorators, overlookedNames_eq_empty hparameters, Set.empty_sdiff,
    Set.empty_sdiff]

/-- A static method has no instance: what it reads of a parameter is foreign, and its decorator reads nothing. -/
theorem atfd_counts_foreign_iff_static :
    let read (owner field : String) : Tree := .node (.attribute field) [.node (.name owner) []]
    let t : Tree := .node (.classDef "A" 1)
      [.node (.function { name := "f", positionalOnly := ["a"], positional := ["b"], decorators := 1 })
        [.node (.name "staticmethod") [], read "a" "x", read "b" "y"]]
    (ofClass [] "A" 1 t).atfd = 2 ∧ (ofClass [] "A" 1 t).atfd = ((foreignNames [] "A" t).ncard : Nat) := by
  intro read t
  refine ⟨by decide, (atfd_counts_foreign_iff [] "A" 1 t).2 (by decide) ?_⟩
  rintro m hm place owner field hreads ⟨⟨i, hi, rfl⟩, -, -⟩
  obtain rfl : m = _ := List.mem_singleton.1 hm
  obtain ⟨j, rest, child, hplace, hchild, hinside⟩ := Tree.reads_function.1 hreads
  obtain ⟨rfl, rfl⟩ := List.cons.inj hplace
  obtain rfl : i = 0 := Nat.lt_one_iff.1 hi
  obtain rfl : .node (.name "staticmethod") [] = child := by simpa using hchild
  exact Tree.not_reads_name hinside

/-- A method that reads an attribute of its first parameter, which is positional-only, counts as reading foreign data,
and so does one with a decorator that extends a property. -/
theorem not_atfd_counts_foreign :
    let read (owner field : String) : Tree := .node (.attribute field) [.node (.name owner) []]
    let receiver : Tree := .node (.classDef "A" 1)
      [.node (.function { name := "f", positionalOnly := ["me"] }) [read "me" "x"]]
    let property : Tree := .node (.classDef "A" 1)
      [.node (.function { name := "x", positional := ["self"], decorators := 1 })
        [.node (.name "property") [], read "self" "y"],
      .node (.function { name := "x", positional := ["self", "y"], decorators := 1 })
        [read "x" "setter", read "self" "y"]]
    ((ofClass [] "A" 1 receiver).atfd = 1 ∧ (foreignNames [] "A" receiver).ncard = 0) ∧
      (ofClass [] "A" 1 property).atfd = 1 ∧ (foreignNames [] "A" property).ncard = 0 := by
  intro read receiver property
  have hreceiver : foreignNames [] "A" receiver = ∅ := by
    refine namesRead_eq_empty fun m hm place owner field h => ?_
    obtain rfl : m = _ := List.mem_singleton.1 hm
    obtain ⟨i, rest, child, rfl, hchild, hinside⟩ := Tree.reads_function.1 h.reads
    rcases i with _ | i
    · obtain rfl : read "me" "x" = child := by simpa using hchild
      obtain ⟨-, rfl, -⟩ := Tree.reads_attribute.1 hinside
      exact h.ne_first rfl rfl
    · simp at hchild
  have hproperty : foreignNames [] "A" property = ∅ := by
    refine namesRead_eq_empty fun m hm place owner field h => ?_
    obtain rfl | rfl : m = _ ∨ m = _ := by simpa [methods, property, Tree.functionHead?, Tree.children] using hm
    all_goals obtain ⟨i, rest, child, rfl, hchild, hinside⟩ := Tree.reads_function.1 h.reads
    · rcases i with _ | _ | i
      · obtain rfl : .node (.name "property") [] = child := by simpa using hchild
        exact Tree.not_reads_name hinside
      · obtain rfl : read "self" "y" = child := by simpa using hchild
        exact h.ne_self (Tree.reads_attribute.1 hinside).2.1.symm
      · simp at hchild
    · rcases i with _ | _ | i
      · obtain rfl : read "x" "setter" = child := by simpa using hchild
        obtain ⟨rfl, rfl, rfl⟩ := Tree.reads_attribute.1 hinside
        exact h.ne_decorator ⟨⟨0, Nat.one_pos, rfl⟩, by decide, by decide⟩
      · obtain rfl : read "self" "y" = child := by simpa using hchild
        exact h.ne_self (Tree.reads_attribute.1 hinside).2.1.symm
      · simp at hchild
  rw [hreceiver, hproperty, Set.ncard_empty]
  decide

end Names

end Hotspots.ClassMetrics
