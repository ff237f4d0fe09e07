import Mathlib.Data.Finset.Max
import Mathlib.Data.Fintype.Perm
import Mathlib.Data.List.OfFn
import Stencil.Proofs.Bindings

/-!
# Histories of bindings

Bindings come from a list of pairs and from values that are inserted behind it, one by one. All that can be told of
them is which value was the last for each name.

- **`getElem?_exchangeAll`**: what each insertion gives back is what the name was bound to before it.
- **`size_ofList`**: the size is the number of names in the history.
- **`ofList_reorder`**: pairs in another order make the same bindings if the last pair for each name stays the last.
-/

namespace Stencil
namespace Bindings

variable {b : Bindings} {pairs inserts : List (String × String)} {n : String}

/-! ## Insertions one by one -/

/-- The pairs inserted one after another: what each insertion gives back, and the bindings behind the last. -/
def exchangeAll (b : Bindings) : List (String × String) → List (Option String) × Bindings
  | [] => ([], b)
  | p :: rest =>
    let (previous, b) := b.exchange p.1 p.2
    let (others, b) := b.exchangeAll rest
    (previous :: others, b)

@[simp] theorem exchangeAll_snd : (b.exchangeAll pairs).2 = b.insertAll pairs := by
  induction pairs generalizing b with
  | nil => rfl
  | cons p rest ih => exact ih

theorem insertAll_ofList : (ofList pairs).insertAll inserts = ofList (pairs ++ inserts) := by
  simp only [ofList, insertAll, List.foldl_append]

/-- **What an insertion gives back**: what the name was bound to before it. -/
theorem getElem?_exchangeAll (i : Nat) :
    (b.exchangeAll pairs).1[i]? = pairs[i]?.map fun p => (b.insertAll (pairs.take i)).get? p.1 := by
  induction pairs generalizing b i with
  | nil => rfl
  | cons p rest ih =>
    cases i with
    | zero => rfl
    | succ i => exact ih i

/-- One more insertion changes what its name is bound to, and nothing else. -/
theorem insertAll_take_succ {i : Nat} (hi : i < pairs.length) :
    b.insertAll (pairs.take (i + 1)) = (b.insertAll (pairs.take i)).insert pairs[i].1 pairs[i].2 := by
  rw [List.take_succ_eq_append_getElem hi, insertAll, List.foldl_append]
  rfl

/-! ## The names that are bound -/

/-- The names that have a value. -/
def names (b : Bindings) : List String := b.table.entries.map Prod.fst

theorem mem_names_iff : n ∈ b.names ↔ b.get? n ≠ none := by
  rw [names, List.mem_map, Option.ne_none_iff_exists']
  constructor
  · rintro ⟨p, hp, rfl⟩
    exact ⟨p.2, (Table.get?_eq_some_iff b.table).mpr hp⟩
  · rintro ⟨v, hv⟩
    exact ⟨(n, v), (Table.get?_eq_some_iff b.table).mp hv, rfl⟩

theorem nodup_names : b.names.Nodup := by
  rw [names, List.Nodup, List.pairwise_map]
  refine b.table.sorted.imp ?_
  intro p q hpq heq
  rw [heq, Key.before_irrefl] at hpq
  cases hpq

theorem lastValue_eq_none_iff : lastValue pairs n = none ↔ n ∉ pairs.map Prod.fst := by
  rw [lastValue, List.lookup_eq_none_iff, List.mem_map]
  constructor
  · rintro h ⟨p, hp, rfl⟩
    simpa using h p (List.mem_reverse.mpr hp)
  · intro h p hp
    rw [bne_iff_ne]
    rintro rfl
    exact h ⟨p, List.mem_reverse.mp hp, rfl⟩

/-- **The size** is the number of names that have been given a value, each counted once. -/
theorem size_ofList : (ofList pairs).size = (pairs.map Prod.fst).toFinset.card := by
  have hsame : (ofList pairs).names.toFinset = (pairs.map Prod.fst).toFinset := by
    ext n
    rw [List.mem_toFinset, List.mem_toFinset, mem_names_iff, get?_ofList, ne_eq, lastValue_eq_none_iff, not_not]
  rw [← hsame, List.toFinset_card_of_nodup nodup_names, names, List.length_map]
  rfl

theorem isEmpty_iff : b.isEmpty = true ↔ b.size = 0 := by
  rw [isEmpty, List.isEmpty_iff_length_eq_zero]
  rfl

/-! ## Other orders -/

/-- The pairs in another order: the one in place `σ i` comes to place `i`. -/
def reorder (pairs : List (String × String)) (σ : Equiv.Perm (Fin pairs.length)) : List (String × String) :=
  List.ofFn fun i => pairs[σ i]

/-- The last pair for each name is the last one for it in the new order, too. -/
def KeepsLast (pairs : List (String × String)) (σ : Equiv.Perm (Fin pairs.length)) : Prop :=
  ∀ i : Fin pairs.length, (∀ j, i < j → pairs[j].1 ≠ pairs[i].1) → ∀ j, σ.symm i < σ.symm j → pairs[j].1 ≠ pairs[i].1

theorem lastValue_append (before after : List (String × String)) (n : String) :
    lastValue (before ++ after) n = (lastValue after n).or (lastValue before n) := by
  rw [lastValue, List.reverse_append, List.lookup_append]
  rfl

/-- The value in the last place for a name. -/
theorem lastValue_of_last {i : Nat} (hi : i < pairs.length)
    (hlast : ∀ j (hj : j < pairs.length), i < j → pairs[j].1 ≠ pairs[i].1) :
    lastValue pairs pairs[i].1 = some pairs[i].2 := by
  have hsplit : pairs = pairs.take i ++ pairs[i] :: pairs.drop (i + 1) := by
    rw [← List.drop_eq_getElem_cons hi, List.take_append_drop]
  have hnone : lastValue (pairs.drop (i + 1)) pairs[i].1 = none := by
    rw [lastValue_eq_none_iff]
    intro hmem
    obtain ⟨p, hp, hname⟩ := List.mem_map.mp hmem
    obtain ⟨k, hk, rfl⟩ := List.mem_iff_getElem.mp hp
    rw [List.getElem_drop] at hname
    exact hlast (i + 1 + k) (by rw [List.length_drop] at hk; omega) (by omega) hname
  generalize pairs[i] = p at *
  rw [hsplit, lastValue_append, lastValue_cons, hnone, if_pos rfl]
  rfl

/-- A name that occurs has a last place. -/
theorem exists_last (h : n ∈ pairs.map Prod.fst) :
    ∃ i : Fin pairs.length, pairs[i].1 = n ∧ ∀ j, i < j → pairs[j].1 ≠ pairs[i].1 := by
  obtain ⟨p, hp, rfl⟩ := List.mem_map.mp h
  obtain ⟨k, hk, rfl⟩ := List.mem_iff_getElem.mp hp
  let places := Finset.univ.filter fun i : Fin pairs.length => pairs[i].1 = pairs[k].1
  have hplaces : places.Nonempty := ⟨⟨k, hk⟩, by simp [places]⟩
  have hmax : pairs[places.max' hplaces].1 = pairs[k].1 := (Finset.mem_filter.mp (places.max'_mem hplaces)).2
  refine ⟨places.max' hplaces, hmax, ?_⟩
  intro j hj hname
  have hjmem : j ∈ places := Finset.mem_filter.mpr ⟨Finset.mem_univ j, hname.trans hmax⟩
  exact absurd (places.le_max' j hjmem) (not_le_of_gt hj)

theorem lastValue_reorder {σ : Equiv.Perm (Fin pairs.length)} (h : KeepsLast pairs σ) (n : String) :
    lastValue (reorder pairs σ) n = lastValue pairs n := by
  have hnames : n ∈ (reorder pairs σ).map Prod.fst ↔ n ∈ pairs.map Prod.fst := by
    have hperm : (reorder pairs σ).Perm pairs := by
      have hofFn := σ.ofFn_comp_perm fun i : Fin pairs.length => pairs[i]
      exact hofFn.trans (.of_eq List.ofFn_getElem)
    exact (hperm.map Prod.fst).mem_iff
  by_cases hmem : n ∈ pairs.map Prod.fst
  · obtain ⟨i, rfl, hlast⟩ := exists_last hmem
    have hlen : (reorder pairs σ).length = pairs.length := List.length_ofFn
    have hget : ∀ (j : Nat) (hj : j < (reorder pairs σ).length),
        (reorder pairs σ)[j] = pairs[σ ⟨j, hlen ▸ hj⟩] := fun j hj => List.getElem_ofFn hj
    have hplace : ((σ.symm i : Fin pairs.length) : Nat) < (reorder pairs σ).length := hlen.symm ▸ (σ.symm i).isLt
    have hthere : (reorder pairs σ)[((σ.symm i : Fin pairs.length) : Nat)] = pairs[i] :=
      (hget _ hplace).trans (congrArg (fun j => pairs[j]) (σ.apply_symm_apply i))
    have hlast' := lastValue_of_last hplace fun j hj hij => by
      rw [hget j hj, hthere]
      apply h i hlast
      rwa [σ.symm_apply_apply]
    rw [hthere] at hlast'
    rw [hlast']
    exact (lastValue_of_last i.isLt fun j hj hij => hlast ⟨j, hj⟩ hij).symm
  · rw [lastValue_eq_none_iff.mpr hmem, lastValue_eq_none_iff.mpr (hnames.not.mpr hmem)]

/-- **Another order.** Pairs make the same bindings in every order in which the last pair for each name stays the
last. -/
theorem ofList_reorder {σ : Equiv.Perm (Fin pairs.length)} (h : KeepsLast pairs σ) :
    ofList (reorder pairs σ) = ofList pairs := by
  apply ext_get?
  intro n
  rw [get?_ofList, get?_ofList, lastValue_reorder h]

/-! ## What a history tells -/

/-- **Histories.** Let bindings be made from a list of pairs, and let further values be inserted into them one by one.
Each name is bound to the value in the last pair for it, and other names have no value. An insertion gives back what its
name was bound to just before it, and changes the value of this name only. The size is the number of names in the
history, and the bindings are empty exactly if it is 0. Bindings from two histories are equal exactly if each name has
the same value in both; so another order of the pairs, in which the last pair for each name still is the last, makes
equal bindings, wherever the insertions begin. -/
theorem bindings_of_history (pairs inserts : List (String × String)) :
    let r : List (Option String) × Bindings := (ofList pairs).exchangeAll inserts
    let history := pairs ++ inserts
    (∀ n, r.2.get? n = lastValue history n) ∧
    (∀ i (hi : i < inserts.length),
      let before := ((ofList pairs).exchangeAll (inserts.take i)).2
      let after := ((ofList pairs).exchangeAll (inserts.take (i + 1))).2
      r.1[i]? = some (before.get? inserts[i].1) ∧
        ∀ n, after.get? n = if n = inserts[i].1 then some inserts[i].2 else before.get? n) ∧
    (r.2.size = (history.map Prod.fst).toFinset.card ∧ (r.2.isEmpty = true ↔ r.2.size = 0)) ∧
    (∀ pairs' inserts', let r' := (ofList pairs').exchangeAll inserts'
      r'.2 = r.2 ↔ ∀ n, r'.2.get? n = r.2.get? n) ∧
    ∀ σ, KeepsLast history σ → ∀ pairs' inserts', pairs' ++ inserts' = reorder history σ →
      ((ofList pairs').exchangeAll inserts').2 = r.2 := by
  simp only [exchangeAll_snd, insertAll_ofList]
  refine ⟨get?_ofList _, fun i hi => ⟨?_, ?_⟩, ⟨size_ofList, isEmpty_iff⟩, fun pairs' inserts' => ⟨?_, ext_get?⟩, ?_⟩
  · rw [getElem?_exchangeAll, List.getElem?_eq_getElem hi, Option.map_some, insertAll_ofList]
  · intro n
    rw [← insertAll_ofList, insertAll_take_succ hi, get?_insert, insertAll_ofList]
  · rintro h n
    rw [h]
  · intro σ hσ pairs' inserts' hsame
    rw [hsame, ofList_reorder hσ]

theorem bindings_of_history_valueTwice :
    let r := (ofList [("a", "1")]).exchangeAll [("b", "2"), ("a", "3")]
    r.1 = [none, some "1"] ∧ r.2.get? "a" = some "3" ∧ r.2.size = 2 ∧
      ((ofList []).exchangeAll [("b", "2"), ("a", "1"), ("a", "3")]).2 = r.2 := by
  intro r
  obtain ⟨hget, hinsert, ⟨hsize, -⟩, -, hreorder⟩ := bindings_of_history [("a", "1")] [("b", "2"), ("a", "3")]
  let σ : Equiv.Perm (Fin 3) := Equiv.swap 0 1
  have hlast : KeepsLast [("a", "1"), ("b", "2"), ("a", "3")] σ := by
    unfold KeepsLast
    decide +kernel
  refine ⟨?_, hget "a", hsize, hreorder σ hlast _ _ (by decide +kernel)⟩
  have hfirst := (hinsert 0 (by decide)).1
  have hsecond := (hinsert 1 (by decide)).1
  apply List.ext_getElem?
  intro i
  match i with
  | 0 => exact hfirst
  | 1 => exact hsecond
  | i + 2 => rfl

end Bindings
end Stencil
