import Mathlib.Data.List.Nodup
import Mathlib.Data.List.Perm.Subperm

/-! # Requests and their answers

A request is answered, or held until it is.
-/

namespace Library.Answers

universe u v

variable {ι : Type u} {β : Type v}

structure Ledger (asked : List ι) (answered : List (ι × β)) (held : List ι) : Prop where
  nodup : (answered.map Prod.fst ++ held).Nodup
  asked : answered.map Prod.fst ++ held ⊆ asked

def Complete (asked : List ι) (answered : List (ι × β)) (held : List ι) : Prop := asked ⊆ answered.map Prod.fst ++ held

variable {asked : List ι} {answered : List (ι × β)} {held : List ι}

variable {request : ι} {held' others : List ι}

namespace Ledger

theorem nil : Ledger ([] : List ι) ([] : List (ι × β)) [] := ⟨List.nodup_nil, List.Subset.refl _⟩

section

variable (h : Ledger asked answered held)
include h

theorem once : (answered.map Prod.fst).Nodup := (List.nodup_append.mp h.nodup).1

theorem not_answered (hHeld : request ∈ held) : request ∉ answered.map Prod.fst := fun hAnswered =>
  (List.nodup_append.mp h.nodup).2.2 request hAnswered request hHeld rfl

theorem hold (hHeld : held'.Subperm held) : Ledger asked answered held' where
  nodup := by
    obtain ⟨middle, hPerm, hSublist⟩ := hHeld
    have hMiddle : (answered.map Prod.fst ++ middle).Nodup := h.nodup.sublist ((List.Sublist.refl _).append hSublist)
    exact ((List.Perm.refl (answered.map Prod.fst)).append hPerm).nodup_iff.mp hMiddle
  asked := by
    intro request hMem
    obtain hAnswered | hIn := List.mem_append.mp hMem
    · exact h.asked (List.mem_append_left held hAnswered)
    · exact h.asked (List.mem_append_right _ (hHeld.subset hIn))

theorem ask (hNew : request ∉ asked) : Ledger (asked ++ [request]) answered (held ++ [request]) where
  nodup := by
    rw [← List.append_assoc, List.nodup_append]
    refine ⟨h.nodup, List.nodup_singleton request, ?_⟩
    intro other hOther last hLast hSame
    exact hNew (h.asked (List.mem_singleton.mp hLast ▸ hSame ▸ hOther))
  asked := by
    rw [← List.append_assoc]
    exact List.append_subset.mpr ⟨fun _ hMem => List.mem_append_left _ (h.asked hMem), List.subset_append_right asked [request]⟩

theorem replace (hNew : request ∉ asked) {old : List ι} (hOld : held.Perm (old ++ others))
    (hHeld : held'.Perm (request :: others)) : Ledger (asked ++ [request]) answered held' := by
  have hOthers : others.Subperm held := (List.sublist_append_right old others).subperm.trans hOld.symm.subperm
  refine (h.ask hNew).hold (hHeld.subperm.trans ?_)
  exact (List.perm_append_singleton request others).symm.subperm.trans ((List.subperm_append_right [request]).mpr hOthers)

theorem answer {answers : List (ι × β)} (hOld : held.Perm (answers.map Prod.fst ++ others)) (hHeld : held'.Perm others) :
    Ledger asked (answered ++ answers) held' := by
  have hFront := h.hold (((List.Perm.refl _).append hHeld).trans hOld.symm).subperm
  have hSame : (answered ++ answers).map Prod.fst ++ held' = answered.map Prod.fst ++ (answers.map Prod.fst ++ held') := by
    rw [List.map_append, List.append_assoc]
  exact ⟨hSame ▸ hFront.nodup, hSame ▸ hFront.asked⟩

end

end Ledger

namespace Complete

theorem nil : Complete ([] : List ι) ([] : List (ι × β)) [] := List.Subset.refl _

section

variable (h : Complete asked answered held)
include h

theorem hold (hHeld : held ⊆ held') : Complete asked answered held' := by
  intro request hAsked
  obtain hAnswered | hIn := List.mem_append.mp (h hAsked)
  · exact List.mem_append_left held' hAnswered
  · exact List.mem_append_right _ (hHeld hIn)

theorem ask (hHeld : held'.Perm (request :: held)) : Complete (asked ++ [request]) answered held' := by
  have hKept := h.hold fun _ hMem => hHeld.symm.subset (List.mem_cons_of_mem request hMem)
  intro other hOther
  obtain hOld | hNew := List.mem_append.mp hOther
  · exact hKept hOld
  · exact List.mem_append_right _ (hHeld.symm.subset (List.mem_singleton.mp hNew ▸ List.mem_cons_self))

theorem answer {answers : List (ι × β)} (hOld : held.Perm (answers.map Prod.fst ++ others)) (hHeld : held'.Perm others) :
    Complete asked (answered ++ answers) held' := by
  have hFront := h.hold (((List.Perm.refl _).append hHeld).trans hOld.symm).symm.subset
  rw [Complete, List.map_append, List.append_assoc]
  exact hFront

theorem answered_of_not_held (hAsked : request ∈ asked) (hFree : request ∉ held) : request ∈ answered.map Prod.fst :=
  (List.mem_append.mp (h hAsked)).resolve_right hFree

end

end Complete

theorem Ledger.dropped (h : Ledger asked answered held) {new : ι} (hNew : new ∉ asked) (hOld : held.Perm (request :: others))
    (hHeld : held'.Perm (new :: others)) : request ∈ asked ∧ request ∉ answered.map Prod.fst ∧ request ∉ held' := by
  have hMem : request ∈ held := hOld.symm.subset List.mem_cons_self
  have hAsked : request ∈ asked := h.asked (List.mem_append_right _ hMem)
  refine ⟨hAsked, h.not_answered hMem, ?_⟩
  intro hStill
  have hNodup : (request :: others).Nodup := hOld.nodup_iff.mp (List.nodup_append.mp h.nodup).2.1
  obtain hSame | hOther := List.mem_cons.mp (hHeld.subset hStill)
  · exact hNew (hSame ▸ hAsked)
  · exact (List.nodup_cons.mp hNodup).1 hOther

end Library.Answers
