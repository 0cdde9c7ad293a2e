import Mathlib.Data.List.Induction
import Cosmosh.SftpPage.TreeRegistry

/-! # The chain of breadcrumbs

The breadcrumbs of a breadcrumb are those up to it.
-/

namespace SftpPage

open Library

def crumbPaths (isAbsolute : Bool) (names : List Text) : List Path :=
  (if isAbsolute then [['/']] else []) ++
    (List.range names.length).map fun index => (if isAbsolute then ['/'] else []) ++ ['/'].intercalate (names.take (index + 1))

def pathOf (isAbsolute : Bool) (names : List Text) : Path := (if isAbsolute then ['/'] else []) ++ ['/'].intercalate names

theorem crumbPaths_concat (isAbsolute : Bool) (names : List Text) (name : Text) :
    crumbPaths isAbsolute (names ++ [name]) = crumbPaths isAbsolute names ++ [pathOf isAbsolute (names ++ [name])] := by
  have hTake : (List.range names.length).map (fun index =>
      (if isAbsolute then ['/'] else []) ++ ['/'].intercalate ((names ++ [name]).take (index + 1))) =
      (List.range names.length).map fun index => (if isAbsolute then ['/'] else []) ++ ['/'].intercalate (names.take (index + 1)) := by
    apply List.map_congr_left
    intro index hIndex
    rw [List.take_append_of_le_length (Nat.succ_le_of_lt (List.mem_range.mp hIndex))]
  rw [crumbPaths, List.length_append, List.length_singleton, List.range_succ, List.map_append, hTake, List.map_singleton,
    List.take_of_length_le (by simp), crumbPaths, pathOf, List.append_assoc]

def Proper (names : List Text) : Prop := ∀ name ∈ names, name ≠ [] ∧ '/' ∉ name

variable (path : Path)

theorem proper_parts : Proper ((path.splitOn '/').filter (· ≠ [])) := by
  intro name hName
  obtain ⟨hMem, hNonempty⟩ := List.mem_filter.mp hName
  exact ⟨of_decide_eq_true hNonempty, PosixPath.not_mem_of_mem_splitOn hMem⟩

variable {names : List Text}

section

variable (h : Proper names)
include h

theorem Proper.filter : names.filter (· ≠ []) = names := List.filter_eq_self.mpr fun name hName => decide_eq_true (h name hName).1

theorem Proper.splitOn (hNonempty : names ≠ []) :
    (['/'].intercalate names).splitOn '/' = names := List.splitOn_intercalate '/' (fun name hName => (h name hName).2) hNonempty

theorem Proper.parts_pathOf (hNonempty : names ≠ []) (isAbsolute : Bool) : ((pathOf isAbsolute names).splitOn '/').filter (· ≠ []) = names := by
  cases isAbsolute with
  | false => exact (congrArg (List.filter _) (h.splitOn hNonempty)).trans h.filter
  | true =>
    have hSplit : (pathOf true names).splitOn '/' = [] :: names := by
      rw [pathOf, if_pos rfl, List.singleton_append, PosixPath.splitOn_cons_separator, h.splitOn hNonempty]
    rw [hSplit]
    exact h.filter

theorem Proper.head?_pathOf (isAbsolute : Bool) : ((pathOf isAbsolute names).head? = some '/') ↔ isAbsolute = true := by
  cases isAbsolute with
  | true => exact iff_of_true rfl rfl
  | false =>
    refine iff_of_false ?_ Bool.noConfusion
    intro hHead
    have hAbsolute : PosixPath.isAbsolute (PosixPath.joinSegments names ++ []) = true := by
      rw [List.append_nil]
      exact decide_eq_true hHead
    have hEmpty : ['/'].intercalate names = [] := PosixPath.isAbsolute_joinSegments h [] hAbsolute
    rw [pathOf, hEmpty] at hHead
    cases hHead

theorem Proper.pathOf_ne_nil (hNonempty : names ≠ []) (isAbsolute : Bool) : pathOf isAbsolute names ≠ [] := by
  intro hEmpty
  have hParts := h.parts_pathOf hNonempty isAbsolute
  rw [hEmpty] at hParts
  exact hNonempty hParts.symm

end

theorem crumbPaths_ne_nil (isAbsolute : Bool) (hNonempty : names ≠ []) : crumbPaths isAbsolute names ≠ [] := by
  intro hEmpty
  have hLength := congrArg List.length hEmpty
  rw [crumbPaths, List.length_append, List.length_map, List.length_range] at hLength
  exact hNonempty (List.length_eq_zero_iff.mp (Nat.add_eq_zero_iff.mp hLength).2)

theorem Proper.breadcrumbPaths_pathOf (h : Proper names) (hNonempty : names ≠ []) (isAbsolute : Bool) :
    breadcrumbPaths (pathOf isAbsolute names) = crumbPaths isAbsolute names := by
  rw [breadcrumbPaths]
  split
  · next hDot =>
    obtain hEmpty | hDot := hDot
    · exact absurd hEmpty (h.pathOf_ne_nil hNonempty isAbsolute)
    · have hParts := h.parts_pathOf hNonempty isAbsolute
      have hHead := h.head?_pathOf isAbsolute
      rw [hDot] at hParts hHead
      obtain rfl : names = [['.']] := hParts.symm
      cases isAbsolute with
      | false => rfl
      | true => exact absurd (hHead.mpr rfl) (by decide)
  · dsimp only
    have hLead : (pathOf isAbsolute names).head? = some '/' ↔ isAbsolute = true := h.head?_pathOf isAbsolute
    rw [h.parts_pathOf hNonempty isAbsolute]
    simp only [hLead]
    exact if_neg (crumbPaths_ne_nil isAbsolute hNonempty)

theorem breadcrumbPaths_root : breadcrumbPaths ['/'] = [['/']] := rfl

variable {before after : List Path} {crumb : Path}

theorem Proper.breadcrumbPaths_of_mem (h : Proper names) {isAbsolute : Bool}
    (hCrumbs : crumbPaths isAbsolute names = before ++ crumb :: after) : breadcrumbPaths crumb = before ++ [crumb] := by
  induction names using List.reverseRecOn generalizing after with
  | nil =>
    cases isAbsolute with
    | false => cases before <;> cases hCrumbs
    | true =>
      obtain ⟨rfl, rfl, rfl⟩ : before = [] ∧ crumb = ['/'] ∧ after = [] := by
        cases before with
        | nil =>
          obtain ⟨hCrumb, hAfter⟩ := List.cons.inj hCrumbs
          exact ⟨rfl, hCrumb.symm, hAfter.symm⟩
        | cons first before =>
          obtain ⟨_, hRest⟩ := List.cons.inj hCrumbs
          cases before <;> cases hRest
      exact breadcrumbPaths_root
  | append_singleton names name ih =>
    rw [crumbPaths_concat] at hCrumbs
    obtain rfl | ⟨rest, last, rfl⟩ := List.eq_nil_or_concat' after
    · obtain ⟨hBefore, hCrumb⟩ := List.append_inj' hCrumbs rfl
      obtain rfl := List.singleton_inj.mp hCrumb
      rw [h.breadcrumbPaths_pathOf (List.concat_ne_nil name names), crumbPaths_concat, hBefore]
    · rw [← List.cons_append, ← List.append_assoc] at hCrumbs
      exact ih (fun other hOther => h other (List.mem_append_left _ hOther)) (List.append_inj_left' hCrumbs rfl)

theorem breadcrumbPaths_eq (hPath : ¬ (path = [] ∨ path = ['.'])) : breadcrumbPaths path =
      let crumbs := crumbPaths (path.head? = some '/') ((path.splitOn '/').filter (· ≠ []))
      if crumbs = [] then [path] else crumbs := by
  rw [breadcrumbPaths, if_neg hPath]
  simp only [crumbPaths, decide_eq_true_eq]

theorem breadcrumbPaths_cases :
    breadcrumbPaths path = [path] ∨ ∃ isAbsolute names, Proper names ∧ breadcrumbPaths path = crumbPaths isAbsolute names := by
  by_cases hPath : path = [] ∨ path = ['.']
  · refine .inr ⟨false, [['.']], ?_, if_pos hPath⟩
    intro name hName
    obtain rfl := List.mem_singleton.mp hName
    exact ⟨List.cons_ne_nil _ _, by decide⟩
  · rw [breadcrumbPaths_eq path hPath]
    dsimp only
    split
    · exact .inl rfl
    · exact .inr ⟨_, _, proper_parts path, rfl⟩

theorem breadcrumbPaths_of_crumb {path : Path} (h : breadcrumbPaths path = before ++ crumb :: after) :
    breadcrumbPaths crumb = before ++ [crumb] := by
  obtain hSelf | ⟨isAbsolute, names, hProper, hCrumbs⟩ := breadcrumbPaths_cases path
  · have hSingle : [path] = before ++ crumb :: after := hSelf.symm.trans h
    obtain ⟨rfl, hRest⟩ | ⟨_, _, hEmpty⟩ := List.cons_eq_append_iff.mp hSingle
    · obtain ⟨rfl, rfl⟩ := List.cons.inj hRest
      exact hSelf
    · cases List.append_eq_nil_iff.mp hEmpty.symm |>.2
  · exact hProper.breadcrumbPaths_of_mem (hCrumbs.symm.trans h)

theorem nodup_of_breadcrumbPaths {path : Path} {crumbs : List Path} (h : breadcrumbPaths path = before ++ crumbs) : crumbs.Nodup := by
  induction crumbs generalizing before with
  | nil => exact List.nodup_nil
  | cons crumb rest ih =>
    rw [List.nodup_cons]
    constructor
    · intro hAgain
      obtain ⟨between, after, rfl⟩ := List.append_of_mem hAgain
      have hFirst := breadcrumbPaths_of_crumb h
      rw [← List.cons_append, ← List.append_assoc] at h
      have hChains := hFirst.symm.trans (breadcrumbPaths_of_crumb h)
      have hLength := congrArg List.length (List.append_cancel_right hChains)
      rw [List.length_append, List.length_cons] at hLength
      omega
    · have hNext : breadcrumbPaths path = (before ++ [crumb]) ++ rest := by rw [h, List.append_assoc, List.singleton_append]
      exact ih hNext

theorem nodup_breadcrumbPaths : (breadcrumbPaths path).Nodup := nodup_of_breadcrumbPaths (List.nil_append _).symm

theorem map_path_mapIdx (lead : Path) (parts : List Text) :
    (parts.mapIdx fun index part => (⟨part, lead ++ ['/'].intercalate (parts.take (index + 1))⟩ : SftpBreadcrumbItem)).map (·.path) =
      (List.range parts.length).map fun index => lead ++ ['/'].intercalate (parts.take (index + 1)) := by
  apply List.ext_getElem
  · rw [List.length_map, List.length_mapIdx, List.length_map, List.length_range]
  · intro index _ _
    rw [List.getElem_map, List.getElem_mapIdx, List.getElem_map, List.getElem_range]

theorem map_path_buildBreadcrumbs : (buildBreadcrumbs path).map (·.path) = breadcrumbPaths path := by
  unfold buildBreadcrumbs breadcrumbPaths
  by_cases hPath : path = [] ∨ path = ['.']
  · rw [if_pos hPath, if_pos hPath]
    rfl
  · rw [if_neg hPath, if_neg hPath]
    dsimp only
    have hCrumbs := map_path_mapIdx (if path.head? = some '/' then ['/'] else []) ((path.splitOn '/').filter (· ≠ []))
    rw [← hCrumbs]
    by_cases hAbsolute : path.head? = some '/'
    · rw [if_pos hAbsolute, if_pos hAbsolute, if_pos hAbsolute, List.singleton_append, List.singleton_append,
        if_neg (List.cons_ne_nil _ _), if_neg (List.cons_ne_nil _ _), List.map_cons]
    · rw [if_neg hAbsolute, if_neg hAbsolute, if_neg hAbsolute, List.nil_append, List.nil_append]
      split
      · next hEmpty =>
        rw [hEmpty, List.map_nil, if_pos rfl]
        rfl
      · next hSome => rw [if_neg fun hEmpty => hSome (List.map_eq_nil_iff.mp hEmpty)]

def chain (path : Path) : List Path := if (breadcrumbPaths path).getLast? = some path then breadcrumbPaths path else [path]

def lexicalParent (path : Path) : Option Path := (chain path).dropLast.getLast?

theorem chain_of_crumb {path : Path} (h : breadcrumbPaths path = before ++ crumb :: after) : chain crumb = before ++ [crumb] := by
  have hCrumb := breadcrumbPaths_of_crumb h
  rw [chain, hCrumb, if_pos List.getLast?_concat]

theorem lexicalParent_of_crumb {path : Path} (h : breadcrumbPaths path = before ++ crumb :: after) : lexicalParent crumb = before.getLast? := by
  rw [lexicalParent, chain_of_crumb h, List.dropLast_concat]

theorem chain_eq_singleton {path : Path} (h : (chain path).dropLast = []) : chain path = [path] := by
  rw [chain] at h ⊢
  split at h
  · next hLast =>
    obtain ⟨before, hCrumbs⟩ := List.getLast?_eq_some_iff.mp hLast
    rw [hCrumbs, List.dropLast_concat] at h
    rw [if_pos hLast, hCrumbs, h, List.nil_append]
  · next hLast => exact if_neg hLast

theorem chain_of_lexicalParent {parent child : Path} (h : lexicalParent child = some parent) : chain child = chain parent ++ [child] := by
  rw [lexicalParent] at h
  have hCrumb : (breadcrumbPaths child).getLast? = some child := by
    by_contra hLast
    rw [chain, if_neg hLast] at h
    cases h
  obtain ⟨before, hChild⟩ := List.getLast?_eq_some_iff.mp hCrumb
  rw [chain, if_pos hCrumb, hChild, List.dropLast_concat] at h
  obtain ⟨ancestors, rfl⟩ := List.getLast?_eq_some_iff.mp h
  have hParent : breadcrumbPaths child = ancestors ++ parent :: [child] := by rw [hChild, List.append_assoc, List.singleton_append]
  rw [chain, if_pos hCrumb, hChild, chain_of_crumb hParent]

end SftpPage
