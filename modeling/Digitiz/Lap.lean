import Mathlib.Data.List.Rotate
import Mathlib.Data.List.Nodup
import Mathlib.Data.List.Perm.Subperm
import Mathlib.Tactic.Ring

/-!
Going round a ring of cells from a cursor.

A lap visits every cell once, starting at the cursor. Taking the first few cells of the lap that
are wanted and putting the cursor behind the last of them leaves the others in the order in which
the old lap would have come to them.
-/

namespace Digitiz.Lap

/-- The cells of a ring of `n`, from the cursor `c` round to it again. -/
def lap (n c : ℕ) : List ℕ := (List.range n).map fun step => (c + step) % n

/-- How far round the lap a cell is. -/
def distance (n c i : ℕ) : ℕ := (i + n - c) % n

variable {n c k i j : ℕ}

@[simp] lemma length_lap : (lap n c).length = n := by simp [lap]

@[simp] lemma getElem_lap (h : j < (lap n c).length) : (lap n c)[j] = (c + j) % n := by
  simp [lap]

lemma lap_eq_rotate : lap n c = (List.range n).rotate c := by
  refine List.ext_getElem (by simp) fun j h1 h2 => ?_
  rw [List.getElem_rotate]
  simp [Nat.add_comm]

lemma nodup_lap : (lap n c).Nodup := by
  rw [lap_eq_rotate, List.nodup_rotate]
  exact List.nodup_range

lemma mem_lap : i ∈ lap n c ↔ i < n := by
  rw [lap_eq_rotate, List.mem_rotate, List.mem_range]

/-- From a cursor further on, the lap is the rest of the old one and then its beginning. -/
lemma lap_add (hk : k ≤ n) : lap n ((c + k) % n) = (lap n c).drop k ++ (lap n c).take k := by
  have hmod : lap n ((c + k) % n) = lap n (c + k) := by
    simp only [lap, Nat.mod_add_mod]
  rw [hmod, lap_eq_rotate, ← List.rotate_rotate, ← lap_eq_rotate,
    List.rotate_eq_drop_append_take (by simpa using hk)]

lemma distance_lap (hc : c < n) (h : j < (lap n c).length) : distance n c (lap n c)[j] = j := by
  rw [getElem_lap]
  rw [length_lap] at h
  unfold distance
  rcases Nat.lt_or_ge (c + j) n with hlt | hge
  · rw [Nat.mod_eq_of_lt hlt, show c + j + n - c = j + n by omega, Nat.add_mod_right,
      Nat.mod_eq_of_lt h]
  · have hwrap : (c + j) % n = c + j - n := by
      rw [Nat.mod_eq_sub_mod hge, Nat.mod_eq_of_lt (by omega)]
    rw [hwrap, show c + j - n + n - c = j by omega, Nat.mod_eq_of_lt h]

/-- A lap goes further and further. -/
lemma pairwise_lap (hc : c < n) :
    (lap n c).Pairwise fun i j => distance n c i < distance n c j := by
  rw [List.pairwise_iff_getElem]
  intro i j hi hj hij
  rw [distance_lap hc, distance_lap hc]
  exact hij

lemma distance_lt (hn : 0 < n) : distance n c i < n := Nat.mod_lt _ hn

/-- Moving the cursor on brings a cell that it does not pass nearer by as much. -/
lemma distance_add (hc : c < n) (hi : i < n) (hk : k ≤ distance n c i) :
    distance n ((c + k) % n) i + k = distance n c i := by
  have hd : distance n c i = if c ≤ i then i - c else i + n - c := by
    unfold distance
    split_ifs with h
    · rw [show i + n - c = i - c + n by omega, Nat.add_mod_right, Nat.mod_eq_of_lt (by omega)]
    · exact Nat.mod_eq_of_lt (by omega)
  have hck : (c + k) % n = if c + k < n then c + k else c + k - n := by
    split_ifs with h
    · exact Nat.mod_eq_of_lt h
    · rw [Nat.mod_eq_sub_mod (by omega), Nat.mod_eq_of_lt (by split_ifs at hd <;> omega)]
  have hto : ∀ m, distance n c i = m + k → i + n - (c + k) % n = m ∨
      i + n - (c + k) % n = m + n := by
    intro m hm
    rw [hck]
    split_ifs at hd ⊢ <;> omega
  obtain ⟨m, hm⟩ := Nat.exists_eq_add_of_le' hk
  have hmn : m < n := by
    have := distance_lt (n := n) (c := c) (i := i) (by omega)
    omega
  rcases hto m hm with h | h
  · rw [hm, distance, h, Nat.mod_eq_of_lt hmn]
  · rw [hm, distance, h, Nat.add_mod_right, Nat.mod_eq_of_lt hmn]

section cut

variable {α : Type*} (p : α → Bool)

/-- Where the first `b` wanted elements of a list end: just behind a wanted one, with the
others after it. -/
lemma exists_cut (l : List α) (b : ℕ) (hb : 0 < b) (hne : l.filter p ≠ []) :
    ∃ k x, k + 1 ≤ l.length ∧ l[k]? = some x ∧ p x = true ∧
      (l.filter p).take b = (l.take (k + 1)).filter p ∧
      (l.filter p).drop b = (l.drop (k + 1)).filter p := by
  induction l generalizing b with
  | nil => exact absurd rfl hne
  | cons a r ih =>
    by_cases ha : p a = true
    · rw [List.filter_cons_of_pos ha]
      obtain ⟨b, rfl⟩ := Nat.exists_eq_add_of_lt hb
      rw [Nat.zero_add, List.take_succ_cons, List.drop_succ_cons]
      by_cases hlast : b = 0 ∨ r.filter p = []
      · -- this one is the last taken
        refine ⟨0, a, by simp, rfl, ha, ?_, ?_⟩
        · rcases hlast with rfl | h <;> simp [*]
        · rcases hlast with rfl | h <;> simp [*]
      · obtain ⟨k, x, hk, hx, hp, ht, hd⟩ := ih b (by omega) (by tauto)
        refine ⟨k + 1, x, by simpa using hk, by simpa using hx, hp, ?_, ?_⟩
        · rw [List.take_succ_cons, List.filter_cons_of_pos ha, ht]
        · rw [List.drop_succ_cons, hd]
    · rw [List.filter_cons_of_neg ha] at hne ⊢
      obtain ⟨k, x, hk, hx, hp, ht, hd⟩ := ih b hb hne
      refine ⟨k + 1, x, by simpa using hk, by simpa using hx, hp, ?_, ?_⟩
      · rw [List.take_succ_cons, List.filter_cons_of_neg ha, ht]
      · rw [List.drop_succ_cons, hd]

end cut

/-- **The sweep.** The first `b` wanted cells of a lap reach up to some distance; with the cursor
put behind it and those cells not wanted any more, the wanted cells of the new lap are the others
of the old one. -/
theorem sweep (p q : ℕ → Bool) (b : ℕ) (hb : 0 < b) (hc : c < n) (hne : (lap n c).filter p ≠ [])
    (hq : ∀ i < n, q i = (p i && decide (i ∉ ((lap n c).filter p).take b))) :
    ∃ k < n, (∀ i ∈ ((lap n c).filter p).take b, distance n c i ≤ k) ∧
      (∃ i ∈ ((lap n c).filter p).take b, distance n c i = k) ∧
      (lap n ((c + k + 1) % n)).filter q = ((lap n c).filter p).drop b := by
  obtain ⟨k, x, hk, hx, hp, htake, hdrop⟩ := exists_cut p (lap n c) b hb hne
  rw [length_lap] at hk
  refine ⟨k, hk, ?_, ?_, ?_⟩
  · intro i hi
    rw [htake] at hi
    obtain ⟨j, hj, rfl⟩ := List.mem_iff_getElem.mp (List.mem_of_mem_filter hi)
    rw [List.length_take] at hj
    rw [List.getElem_take, distance_lap hc]
    omega
  · refine ⟨x, ?_, ?_⟩
    · rw [htake]
      refine List.mem_filter.mpr ⟨?_, hp⟩
      exact List.mem_of_getElem? (by rw [List.getElem?_take_of_lt (Nat.lt_succ_self k), hx])
    · obtain ⟨hlt, hget⟩ := List.getElem?_eq_some_iff.mp hx
      rw [← hget, distance_lap hc]
  · rw [Nat.add_assoc, lap_add hk, List.filter_append, hdrop]
    have hsplit : (lap n c).take (k + 1) ++ (lap n c).drop (k + 1) = lap n c :=
      List.take_append_drop _ _
    have hnd : ((lap n c).take (k + 1)).Disjoint ((lap n c).drop (k + 1)) := by
      have h := nodup_lap (n := n) (c := c)
      rw [← hsplit] at h
      exact (List.nodup_append'.mp h).2.2
    have hA : ((lap n c).take (k + 1)).filter q = [] := by
      refine List.filter_eq_nil_iff.mpr fun i hi => ?_
      rw [hq i (mem_lap.mp (List.mem_of_mem_take hi)), htake]
      by_cases hpi : p i = true
      · simp [List.mem_filter.mpr ⟨hi, hpi⟩, hpi]
      · simp [hpi]
    have hB : ((lap n c).drop (k + 1)).filter q = ((lap n c).drop (k + 1)).filter p := by
      refine List.filter_congr fun i hi => ?_
      rw [hq i (mem_lap.mp (List.mem_of_mem_drop hi)), htake]
      have hnot : i ∉ ((lap n c).take (k + 1)).filter p :=
        fun h => hnd (List.mem_of_mem_filter h) hi
      simp [hnot]
    rw [hA, hB, List.append_nil]

/-- A wanted cell that was not among the first `b` lies behind them, and `b` cells or more have
been passed on the way to it. -/
lemma passed_of_drop (p : ℕ → Bool) {b : ℕ} (hc : c < n)
    (hle : ∀ j ∈ ((lap n c).filter p).take b, distance n c j ≤ k)
    (hat : ∃ j ∈ ((lap n c).filter p).take b, distance n c j = k)
    (hi : i ∈ ((lap n c).filter p).drop b) : b ≤ k + 1 ∧ k + 1 ≤ distance n c i := by
  have hpair : ((lap n c).filter p).Pairwise fun i j => distance n c i < distance n c j :=
    (pairwise_lap hc).filter p
  rw [← List.take_append_drop b ((lap n c).filter p), List.pairwise_append] at hpair
  refine ⟨?_, ?_⟩
  · -- the distances passed are different and at most `k`
    have hnd : ((((lap n c).filter p).take b).map (distance n c)).Nodup :=
      List.pairwise_map.mpr (hpair.1.imp fun h => Nat.ne_of_lt h)
    have hsub : (((lap n c).filter p).take b).map (distance n c) ⊆ List.range (k + 1) := by
      intro d hd
      obtain ⟨j, hj, rfl⟩ := List.mem_map.mp hd
      exact List.mem_range.mpr (Nat.lt_succ_of_le (hle j hj))
    have hlen := (List.subperm_of_subset hnd hsub).length_le
    have hb : b < ((lap n c).filter p).length := by
      by_contra hge
      rw [List.drop_of_length_le (Nat.le_of_not_lt hge)] at hi
      exact List.not_mem_nil hi
    rw [List.length_map, List.length_take, List.length_range] at hlen
    omega
  · obtain ⟨j, hj, rfl⟩ := hat
    exact hpair.2.2 j hj i hi

end Digitiz.Lap
