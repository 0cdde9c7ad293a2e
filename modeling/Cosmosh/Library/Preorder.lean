import Mathlib.Data.List.Nodup
import Mathlib.Logic.Relation

/-! # Listing a forest with numbered siblings

An item is listed before the items below it, and each item with its place among its siblings.
-/

namespace Library.Preorder

universe u v

variable {ι : Type u} {ρ : Type v}

def forEach (visit : ι → Nat → Option (List ρ)) : Nat → List ι → Option (List ρ)
  | _, [] => some []
  | index, item :: rest =>
    match visit item index, forEach visit (index + 1) rest with
    | some here, some others => some (here ++ others)
    | _, _ => none

structure Row (ι : Type u) where
  item : ι
  depth : Nat
  position : Nat
  size : Nat

def listing (below : ι → List ι) : Nat → ι → Nat → Nat → Nat → Option (List (Row ι))
  | 0, _, _, _, _ => none
  | fuel + 1, item, depth, position, size =>
    (forEach (fun child index => listing below fuel child (depth + 1) (index + 1) (below item).length) 0 (below item)).map
      fun rows => ⟨item, depth, position, size⟩ :: rows

def listingAll (below : ι → List ι) (fuel depth : Nat) (siblings : List ι) : Option (List (Row ι)) :=
  forEach (fun item index => listing below fuel item depth (index + 1) siblings.length) 0 siblings

def Below (below : ι → List ι) : ι → ι → Prop := Relation.ReflTransGen fun parent child => child ∈ below parent

variable {visit : ι → Nat → Option (List ρ)} {index : Nat} {item : ι}

theorem forEach_cons_eq_some {rest : List ι} {out : List ρ} (h : forEach visit index (item :: rest) = some out) :
    ∃ here others, visit item index = some here ∧ forEach visit (index + 1) rest = some others ∧ out = here ++ others := by
  rw [forEach] at h
  split at h
  · next here others hHere hOthers => exact ⟨here, others, hHere, hOthers, (Option.some.inj h).symm⟩
  · cases h

variable {items : List ι}

theorem exists_forEach (h : ∀ item ∈ items, ∀ index, ∃ here, visit item index = some here) (index : Nat) :
    ∃ out, forEach visit index items = some out := by
  induction items generalizing index with
  | nil => exact ⟨[], rfl⟩
  | cons item rest ih =>
    obtain ⟨here, hHere⟩ := h item List.mem_cons_self index
    obtain ⟨others, hOthers⟩ := ih (fun other hOther => h other (List.mem_cons_of_mem item hOther)) (index + 1)
    rw [forEach, hHere, hOthers]
    exact ⟨here ++ others, rfl⟩

theorem mem_forEach {out : List ρ} (h : forEach visit index items = some out) {x : ρ} :
    x ∈ out ↔ ∃ offset item here, items[offset]? = some item ∧ visit item (index + offset) = some here ∧ x ∈ here := by
  induction items generalizing index out with
  | nil =>
    obtain rfl := Option.some.inj h
    constructor
    · intro hMem
      cases hMem
    · rintro ⟨_, _, _, hItem, _⟩
      cases hItem
  | cons first rest ih =>
    obtain ⟨here, others, hHere, hOthers, rfl⟩ := forEach_cons_eq_some h
    rw [List.mem_append, ih hOthers]
    constructor
    · rintro (hMem | ⟨offset, item, found, hItem, hFound, hMem⟩)
      · exact ⟨0, first, here, rfl, hHere, hMem⟩
      · exact ⟨offset + 1, item, found, hItem, by rw [← hFound, Nat.add_assoc, Nat.add_comm 1], hMem⟩
    · rintro ⟨offset, item, found, hItem, hFound, hMem⟩
      cases offset with
      | zero =>
        obtain rfl := Option.some.inj hItem
        exact .inl (Option.some.inj (hHere.symm.trans hFound) ▸ hMem)
      | succ offset => exact .inr ⟨offset, item, found, hItem, by rw [← hFound, Nat.add_assoc, Nat.add_comm 1], hMem⟩

theorem infix_forEach {out : List ρ} (h : forEach visit index items = some out) (hItem : item ∈ items) :
    ∃ offset here, visit item (index + offset) = some here ∧ here <:+: out := by
  induction items generalizing index out with
  | nil => cases hItem
  | cons first rest ih =>
    obtain ⟨here, others, hHere, hOthers, rfl⟩ := forEach_cons_eq_some h
    obtain rfl | hRest := List.mem_cons.mp hItem
    · exact ⟨0, here, hHere, [], others, rfl⟩
    · obtain ⟨offset, found, hFound, hInfix⟩ := ih hOthers hRest
      refine ⟨offset + 1, found, by rw [← hFound, Nat.add_assoc, Nat.add_comm 1], ?_⟩
      exact hInfix.trans (List.suffix_append here others).isInfix

theorem forEach_map {σ : Type v} {f : ρ → σ} {other : ι → Nat → Option (List σ)}
    (h : ∀ item ∈ items, ∀ index, other item index = (visit item index).map (List.map f)) (index : Nat) :
    forEach other index items = (forEach visit index items).map (List.map f) := by
  induction items generalizing index with
  | nil => rfl
  | cons item rest ih =>
    rw [forEach, forEach, h item List.mem_cons_self, ih fun later hLater => h later (List.mem_cons_of_mem item hLater)]
    cases visit item index with
    | none => rfl
    | some here =>
      cases forEach visit (index + 1) rest with
      | none => rfl
      | some others => simp

variable {below : ι → List ι}

variable {fuel depth position size : Nat} {rows : List (Row ι)}

theorem listing_eq_some (h : listing below fuel item depth position size = some rows) :
    ∃ rest out, fuel = rest + 1 ∧ listingAll below rest (depth + 1) (below item) = some out ∧ rows = ⟨item, depth, position, size⟩ :: out := by
  cases fuel with
  | zero => cases h
  | succ rest =>
    obtain ⟨out, hOut, hRows⟩ := Option.map_eq_some_iff.mp h
    exact ⟨rest, out, rfl, hOut, hRows.symm⟩

variable {q : ι}

theorem below_of_child {child : ι} (hChild : child ∈ below item) (h : Below below child q) : Below below item q :=
  Relation.ReflTransGen.head hChild h

theorem below_iff : Below below item q ↔ q = item ∨ ∃ child ∈ below item, Below below child q := by
  constructor
  · intro h
    obtain hSame | ⟨child, hChild, hRest⟩ := Relation.ReflTransGen.cases_head h
    · exact .inl hSame.symm
    · exact .inr ⟨child, hChild, hRest⟩
  · rintro (rfl | ⟨child, hChild, h⟩)
    · exact .refl
    · exact below_of_child hChild h

theorem mem_listing (h : listing below fuel item depth position size = some rows) : q ∈ rows.map (·.item) ↔ Below below item q := by
  induction fuel generalizing item depth position size rows with
  | zero => cases h
  | succ fuel ih =>
    obtain ⟨rest, out, hFuel, hOut, rfl⟩ := listing_eq_some h
    obtain rfl := Nat.succ.inj hFuel
    rw [List.map_cons, List.mem_cons, below_iff, List.mem_map]
    refine or_congr_right ?_
    constructor
    · rintro ⟨row, hRow, rfl⟩
      obtain ⟨offset, child, here, hChild, hHere, hMem⟩ := (mem_forEach hOut).mp hRow
      exact ⟨child, List.mem_of_getElem? hChild, (ih hHere).mp (List.mem_map_of_mem hMem)⟩
    · rintro ⟨child, hChild, hBelow⟩
      obtain ⟨offset, here, hHere, hInfix⟩ := infix_forEach hOut hChild
      obtain ⟨row, hRow, rfl⟩ := List.mem_map.mp ((ih hHere).mpr hBelow)
      exact ⟨row, hInfix.subset hRow, rfl⟩

variable {siblings : List ι} {out : List (Row ι)}

theorem sublist_siblings {visit : ι → Nat → Option (List (Row ι))}
    (hVisit : ∀ item ∈ siblings, ∀ index here, visit item index = some here → ∃ row rest, here = row :: rest ∧ row.item = item)
    (h : forEach visit index siblings = some out) : siblings.Sublist (out.map (·.item)) := by
  induction siblings generalizing index out with
  | nil => exact List.nil_sublist _
  | cons item rest ih =>
    obtain ⟨here, others, hHere, hOthers, rfl⟩ := forEach_cons_eq_some h
    obtain ⟨row, more, rfl, rfl⟩ := hVisit item List.mem_cons_self index here hHere
    rw [List.cons_append, List.map_cons, List.map_append]
    have hRest := ih (fun other hOther => hVisit other (List.mem_cons_of_mem _ hOther)) hOthers
    exact (hRest.trans (List.sublist_append_right _ _)).cons_cons _

theorem sublist_listingAll (h : listingAll below fuel depth siblings = some out) : siblings.Sublist (out.map (·.item)) := by
  refine sublist_siblings ?_ h
  intro item _ index here hHere
  obtain ⟨_, rest, _, _, rfl⟩ := listing_eq_some hHere
  exact ⟨_, rest, rfl, rfl⟩

theorem sublist_listing (h : listing below fuel item depth position size = some rows) (hBelow : Below below item q) :
    (below q).Sublist (rows.map (·.item)) := by
  induction fuel generalizing item depth position size rows with
  | zero => cases h
  | succ fuel ih =>
    obtain ⟨rest, out, hFuel, hOut, rfl⟩ := listing_eq_some h
    obtain rfl := Nat.succ.inj hFuel
    rw [List.map_cons]
    refine List.Sublist.cons _ ?_
    obtain rfl | ⟨child, hChild, hRest⟩ := below_iff.mp hBelow
    · exact sublist_listingAll hOut
    · obtain ⟨offset, here, hHere, hInfix⟩ := infix_forEach hOut hChild
      exact (ih hHere hRest).trans (hInfix.sublist.map _)

def Placed (row : Row ι) (siblings : List ι) : Prop :=
  ∃ index, row.position = index + 1 ∧ siblings[index]? = some row.item ∧ row.size = siblings.length

theorem placed_listing (h : listing below fuel item depth (index + 1) siblings.length = some rows)
    (hItem : siblings[index]? = some item) {row : Row ι} (hRow : row ∈ rows) :
    Placed row siblings ∨ ∃ q, Below below item q ∧ Placed row (below q) := by
  induction fuel generalizing item depth index siblings rows with
  | zero => cases h
  | succ fuel ih =>
    obtain ⟨rest, out, hFuel, hOut, rfl⟩ := listing_eq_some h
    obtain rfl := Nat.succ.inj hFuel
    obtain rfl | hRest := List.mem_cons.mp hRow
    · exact .inl ⟨index, rfl, hItem, rfl⟩
    · obtain ⟨offset, child, here, hChild, hHere, hMem⟩ := (mem_forEach hOut).mp hRest
      rw [Nat.zero_add] at hHere
      obtain hPlaced | ⟨q, hBelow, hPlaced⟩ := ih hHere hChild hMem
      · exact .inr ⟨item, .refl, hPlaced⟩
      · exact .inr ⟨q, below_of_child (List.mem_of_getElem? hChild) hBelow, hPlaced⟩

section

variable (h : listingAll below fuel depth siblings = some out)
include h

theorem mem_listingAll : q ∈ out.map (·.item) ↔ ∃ item ∈ siblings, Below below item q := by
  rw [List.mem_map]
  constructor
  · rintro ⟨row, hRow, rfl⟩
    obtain ⟨offset, item, here, hItem, hHere, hMem⟩ := (mem_forEach h).mp hRow
    exact ⟨item, List.mem_of_getElem? hItem, (mem_listing hHere).mp (List.mem_map_of_mem hMem)⟩
  · rintro ⟨item, hItem, hBelow⟩
    obtain ⟨offset, here, hHere, hInfix⟩ := infix_forEach h hItem
    obtain ⟨row, hRow, rfl⟩ := List.mem_map.mp ((mem_listing hHere).mpr hBelow)
    exact ⟨row, hInfix.subset hRow, rfl⟩

theorem sublist_below_listingAll (hItem : item ∈ siblings) (hBelow : Below below item q) : (below q).Sublist (out.map (·.item)) := by
  obtain ⟨offset, here, hHere, hInfix⟩ := infix_forEach h hItem
  exact (sublist_listing hHere hBelow).trans (hInfix.sublist.map _)

theorem placed_listingAll {row : Row ι} (hRow : row ∈ out) :
    Placed row siblings ∨ ∃ item ∈ siblings, ∃ q, Below below item q ∧ Placed row (below q) := by
  obtain ⟨offset, item, here, hItem, hHere, hMem⟩ := (mem_forEach h).mp hRow
  rw [Nat.zero_add] at hHere
  obtain hPlaced | ⟨q, hBelow, hPlaced⟩ := placed_listing hHere hItem hMem
  · exact .inl hPlaced
  · exact .inr ⟨item, List.mem_of_getElem? hItem, q, hBelow, hPlaced⟩

end

section Chains

variable (chain : ι → List ι) (hChain : ∀ parent, ∀ child ∈ below parent, chain child = chain parent ++ [child])

include hChain

theorem isPrefix_chain_of_below (h : Below below item q) : chain item <+: chain q := by
  induction h with
  | refl => exact List.prefix_refl _
  | tail _ hChild ih => exact ih.trans (hChain _ _ hChild ▸ List.prefix_append _ _)

variable {lead : List ι}

theorem eq_of_below {first second : ι} (hFirst : chain first = lead ++ [first]) (hSecond : chain second = lead ++ [second])
    (hBelowFirst : Below below first q) (hBelowSecond : Below below second q) : first = second := by
  have hLength : (chain first).length = (chain second).length := by
    rw [hFirst, hSecond, List.length_append, List.length_append, List.length_singleton, List.length_singleton]
  have hPrefix : chain first <+: chain second :=
    List.prefix_of_prefix_length_le (isPrefix_chain_of_below chain hChain hBelowFirst) (isPrefix_chain_of_below chain hChain hBelowSecond) (Nat.le_of_eq hLength)
  have hSame : chain first = chain second := hPrefix.eq_of_length hLength
  rw [hFirst, hSecond] at hSame
  exact List.singleton_inj.mp (List.append_cancel_left hSame)

theorem nodup_siblings {visit : ι → Nat → Option (List (Row ι))} (hLead : ∀ item ∈ siblings, chain item = lead ++ [item])
    (hNodup : siblings.Nodup) (hVisit : ∀ item ∈ siblings, ∀ index here, visit item index = some here →
      (here.map (·.item)).Nodup ∧ ∀ q ∈ here.map (·.item), Below below item q) (h : forEach visit index siblings = some out) :
    (out.map (·.item)).Nodup := by
  induction siblings generalizing index out with
  | nil =>
    obtain rfl := Option.some.inj h
    exact List.nodup_nil
  | cons item rest ih =>
    obtain ⟨here, others, hHere, hOthers, rfl⟩ := forEach_cons_eq_some h
    obtain ⟨hNew, hRest⟩ := List.nodup_cons.mp hNodup
    obtain ⟨hHereNodup, hHereBelow⟩ := hVisit item List.mem_cons_self index here hHere
    rw [List.map_append, List.nodup_append]
    refine ⟨hHereNodup, ih (fun other hOther => hLead other (List.mem_cons_of_mem item hOther)) hRest
      (fun other hOther => hVisit other (List.mem_cons_of_mem item hOther)) hOthers, ?_⟩
    rintro q hMem _ hOther rfl
    obtain ⟨row, hRow, rfl⟩ := List.mem_map.mp hOther
    obtain ⟨offset, sibling, found, hSibling, hFound, hIn⟩ := (mem_forEach hOthers).mp hRow
    have hMemSibling : sibling ∈ rest := List.mem_of_getElem? hSibling
    have hBelow := (hVisit sibling (List.mem_cons_of_mem item hMemSibling) _ _ hFound).2 row.item (List.mem_map_of_mem hIn)
    have hSame := eq_of_below chain hChain (hLead item List.mem_cons_self) (hLead sibling (List.mem_cons_of_mem item hMemSibling))
      (hHereBelow _ hMem) hBelow
    exact hNew (hSame ▸ hMemSibling)

variable (hNodup : ∀ parent, (below parent).Nodup)

include hNodup

theorem nodup_listing (h : listing below fuel item depth position size = some rows) : (rows.map (·.item)).Nodup := by
  induction fuel generalizing item depth position size rows with
  | zero => cases h
  | succ fuel ih =>
    obtain ⟨rest, out, hFuel, hOut, rfl⟩ := listing_eq_some h
    obtain rfl := Nat.succ.inj hFuel
    rw [List.map_cons, List.nodup_cons]
    constructor
    · intro hAgain
      obtain ⟨row, hRow, hSame⟩ := List.mem_map.mp hAgain
      obtain ⟨offset, child, here, hChild, hHere, hMem⟩ := (mem_forEach hOut).mp hRow
      have hBelow : Below below child row.item := (mem_listing hHere).mp (List.mem_map_of_mem hMem)
      rw [show row.item = item from hSame] at hBelow
      have hLength := (isPrefix_chain_of_below chain hChain hBelow).length_le
      rw [hChain item child (List.mem_of_getElem? hChild), List.length_append, List.length_singleton] at hLength
      exact Nat.not_succ_le_self _ hLength
    · refine nodup_siblings chain hChain (hChain item) (hNodup item) ?_ hOut
      exact fun child _ index here hHere => ⟨ih hHere, fun q => (mem_listing hHere).mp⟩

theorem nodup_listingAll (hLead : ∀ item ∈ siblings, chain item = lead ++ [item]) (hSiblings : siblings.Nodup)
    (h : listingAll below fuel depth siblings = some out) : (out.map (·.item)).Nodup := by
  refine nodup_siblings chain hChain hLead hSiblings ?_ h
  exact fun item _ index here hHere => ⟨nodup_listing chain hChain hNodup hHere, fun q => (mem_listing hHere).mp⟩

omit hNodup in
theorem exists_listing {bound fuel : Nat} {item : ι} (hBound : ∀ q, Below below item q → (chain q).length ≤ bound)
    (hFuel : bound < fuel + (chain item).length) (depth position size : Nat) :
    ∃ rows, listing below fuel item depth position size = some rows := by
  induction fuel generalizing item depth position size with
  | zero =>
    rw [Nat.zero_add] at hFuel
    exact absurd (hBound item .refl) (Nat.not_le.mpr hFuel)
  | succ fuel ih =>
    have hChildren : ∀ child ∈ below item, ∀ index,
        ∃ here, listing below fuel child (depth + 1) (index + 1) (below item).length = some here := by
      intro child hChild index
      refine ih (fun q hBelow => hBound q (below_of_child hChild hBelow)) ?_ _ _ _
      rw [hChain item child hChild, List.length_append, List.length_singleton]
      omega
    obtain ⟨out, hOut⟩ := exists_forEach hChildren 0
    exact ⟨_, Option.map_eq_some_iff.mpr ⟨out, hOut, rfl⟩⟩

end Chains

end Library.Preorder
