import Mathlib.Data.List.Basic
import Mathlib.Data.List.Induction

/-!
# Lists in the same order

A log that only grows at its end and may repeat itself, compared with the list
of what it is about: `eraseDups` keeps the first occurrences, in order.

* `prefix_of_map`, `eraseDups_map` — beginnings and first occurrences, from those
  of the images.
* `eraseDups_prefix_of_order` — the first occurrences in a log begin a list
  without repetitions, if the log comes to nothing before what precedes it there.
-/

namespace Runs

variable {α β : Type*}

/-- A mapped list that begins another one, where the map tells the entries apart. -/
theorem prefix_of_map {f : α → β} {l e : List α}
    (hinj : ∀ x ∈ l, ∀ y ∈ e, f x = f y → x = y) (h : l.map f <+: e.map f) : l <+: e := by
  induction l generalizing e with
  | nil => exact List.nil_prefix
  | cons x l ih =>
      cases e with
      | nil => simp at h
      | cons y e =>
          rw [List.map_cons, List.map_cons, List.cons_prefix_cons] at h
          have hxy : x = y := hinj x List.mem_cons_self y List.mem_cons_self h.1
          have htail : l <+: e := by
            refine ih ?_ h.2
            intro x' hx' y' hy'
            exact hinj x' (List.mem_cons_of_mem _ hx') y' (List.mem_cons_of_mem _ hy')
          rw [hxy, List.cons_prefix_cons]
          exact ⟨rfl, htail⟩

variable [DecidableEq α]

theorem eraseDups_snoc (l : List α) (x : α) :
    (l ++ [x]).eraseDups = l.eraseDups ++ if x ∈ l then [] else [x] := by
  rw [List.eraseDups_append]
  split_ifs with hx
  · simp [List.removeAll, hx]
  · simp [List.removeAll, hx, List.eraseDups_cons]

theorem eraseDups_map [DecidableEq β] {f : α → β} {l : List α}
    (hinj : ∀ x ∈ l, ∀ y ∈ l, f x = f y → x = y) : (l.map f).eraseDups = l.eraseDups.map f := by
  induction l using List.reverseRecOn with
  | nil => rfl
  | append_singleton l x ih =>
      have hl : (l.map f).eraseDups = l.eraseDups.map f := by
        refine ih fun y hy z hz => ?_
        exact hinj y (List.mem_append_left _ hy) z (List.mem_append_left _ hz)
      have hmem : f x ∈ l.map f ↔ x ∈ l := by
        refine ⟨?_, List.mem_map_of_mem⟩
        intro hfx
        rcases List.mem_map.mp hfx with ⟨y, hy, hyx⟩
        have hxy : y = x := hinj y (List.mem_append_left _ hy) x
          (List.mem_append_right _ (List.mem_singleton.mpr rfl)) hyx
        exact hxy ▸ hy
      rw [List.map_append, List.map_singleton, eraseDups_snoc, eraseDups_snoc, List.map_append, hl]
      congr 1
      by_cases hx : x ∈ l
      · rw [if_pos hx, if_pos (hmem.mpr hx), List.map_nil]
      · rw [if_neg hx, if_neg (hmem.not.mpr hx), List.map_singleton]

/-- The first occurrences in `l` begin `e`, if whatever stands in `e` before an
entry of `l` has occurred in `l` before it. -/
theorem eraseDups_prefix_of_order {l e : List α} (hsub : l ⊆ e) (hnd : e.Nodup)
    (hord : ∀ u a v b w, e = u ++ a :: (v ++ b :: w) → b ∈ l →
      a ∈ l ∧ l.idxOf a < l.idxOf b) :
    l.eraseDups <+: e := by
  induction l using List.reverseRecOn with
  | nil => exact List.nil_prefix
  | append_singleton l x ih =>
      have hidx : ∀ y ∈ l, (l ++ [x]).idxOf y = l.idxOf y := by
        intro y hy
        rw [List.idxOf_append, if_pos hy]
      -- the entries before the last one are in order themselves
      have hearlier : ∀ a b, b ∈ l → (l ++ [x]).idxOf a < (l ++ [x]).idxOf b →
          a ∈ l ++ [x] → a ∈ l ∧ l.idxOf a < l.idxOf b := by
        intro a b hb hlt ha
        have hlen : l.idxOf b < l.length := List.idxOf_lt_length_of_mem hb
        rw [hidx b hb] at hlt
        have hmem : a ∈ l := by
          by_contra hnot
          rw [List.idxOf_append, if_neg hnot] at hlt
          omega
        rw [hidx a hmem] at hlt
        exact ⟨hmem, hlt⟩
      have hinit : l.eraseDups <+: e := by
        refine ih (fun y hy => hsub (List.mem_append_left _ hy)) ?_
        intro u a v b w he hb
        rcases hord u a v b w he (List.mem_append_left _ hb) with ⟨ha, hlt⟩
        exact hearlier a b hb hlt ha
      rw [eraseDups_snoc]
      split_ifs with hx
      · rw [List.append_nil]
        exact hinit
      · -- the new entry is the next one of `e`
        rcases hinit with ⟨rest, rfl⟩
        have hrest : x ∈ rest := by
          rcases List.mem_append.mp (hsub (List.mem_append_right _ (List.mem_singleton.mpr rfl)))
            with hold | hnew
          · exact absurd (List.mem_eraseDups.mp hold) hx
          · exact hnew
        rcases List.append_of_mem hrest with ⟨u, w, rfl⟩
        cases u with
        | nil => exact ⟨w, by simp⟩
        | cons y u =>
            rcases hord l.eraseDups y u x w (by simp) (by simp) with ⟨hy, hlt⟩
            have hyl : y ∈ l := by
              rcases List.mem_append.mp hy with hin | hlast
              · exact hin
              · rw [List.mem_singleton.mp hlast] at hlt
                exact absurd hlt (Nat.lt_irrefl _)
            have hdisj := (List.nodup_append.mp hnd).2.2 y (List.mem_eraseDups.mpr hyl) y
            exact absurd rfl (hdisj (by simp))

end Runs
