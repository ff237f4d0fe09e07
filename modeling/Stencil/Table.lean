/-!
# Tables: finite maps with one written form

A `Table κ α` holds at most one value for each key, its pairs in strictly increasing key order. The order is fixed by
the class `Key`, so two tables are equal exactly when every key has the same value in both (`Table.ext_get?`).

- **`get?_insert`**: after an insertion the key has the new value and every other key keeps its own.
- **`ext_get?`**: equal look-ups make equal tables.
-/

namespace Stencil

/-- A strict total order with a decidable test, by which tables arrange their keys. -/
class Key (κ : Type) where
  /-- The first key comes before the second. -/
  before : κ → κ → Bool
  before_irrefl : ∀ a, before a a = false
  before_trans : ∀ {a b c}, before a b = true → before b c = true → before a c = true
  before_total : ∀ {a b}, before a b = false → before b a = false → a = b

namespace Key

variable {κ : Type} [Key κ]

/-- Characters by code point. -/
instance : Key Char where
  before a b := Nat.blt a.toNat b.toNat
  before_irrefl a := Bool.eq_false_iff.mpr fun h => Nat.lt_irrefl _ (Nat.blt_eq.mp h)
  before_trans h h' := by simp only [Nat.blt_eq] at *; omega
  before_total {a b} h h' := by
    have h₁ : ¬ a.toNat < b.toNat := fun k => by simp [Nat.blt_eq.mpr k] at h
    have h₂ : ¬ b.toNat < a.toNat := fun k => by simp [Nat.blt_eq.mpr k] at h'
    exact Char.toNat_inj.mp (by omega)

/-- Lists by their first difference; a list comes before its extensions. -/
def listBefore : List κ → List κ → Bool
  | _, [] => false
  | [], _ :: _ => true
  | a :: as, b :: bs => before a b || (!before b a && listBefore as bs)

theorem listBefore_irrefl : ∀ as : List κ, listBefore as as = false
  | [] => rfl
  | a :: as => by simp [listBefore, before_irrefl, listBefore_irrefl as]

theorem listBefore_total : ∀ {as bs : List κ}, listBefore as bs = false → listBefore bs as = false → as = bs
  | [], [], _, _ => rfl
  | [], _ :: _, h, _ => by simp [listBefore] at h
  | _ :: _, [], _, h => by simp [listBefore] at h
  | a :: as, b :: bs, h, h' => by
    simp only [listBefore, Bool.or_eq_false_iff, Bool.and_eq_false_iff, Bool.not_eq_false'] at h h'
    obtain rfl := before_total h.1 h'.1
    simp only [before_irrefl, Bool.false_eq_true, false_or] at h h'
    rw [listBefore_total h.2 h'.2]

theorem listBefore_trans : ∀ {as bs cs : List κ},
    listBefore as bs = true → listBefore bs cs = true → listBefore as cs = true
  | _, [], _, h, _ => by simp [listBefore] at h
  | _, _ :: _, [], _, h => by simp [listBefore] at h
  | [], _ :: _, _ :: _, _, _ => rfl
  | a :: as, b :: bs, c :: cs, h, h' => by
    simp only [listBefore, Bool.or_eq_true, Bool.and_eq_true, Bool.not_eq_true'] at h h' ⊢
    rcases h with h | ⟨hba, h⟩
    · rcases h' with h' | ⟨hcb, h'⟩
      · exact .inl (before_trans h h')
      · cases hbc : before b c with
        | true => exact .inl (before_trans h hbc)
        | false => obtain rfl := before_total hbc hcb; exact .inl h
    · cases hab : before a b with
      | true =>
        rcases h' with h' | ⟨hcb, h'⟩
        · exact .inl (before_trans hab h')
        · cases hbc : before b c with
          | true => exact .inl (before_trans hab hbc)
          | false => obtain rfl := before_total hbc hcb; exact .inl hab
      | false =>
        obtain rfl := before_total hab hba
        rcases h' with h' | ⟨hcb, h'⟩
        · exact .inl h'
        · exact .inr ⟨hcb, listBefore_trans h h'⟩

instance : Key (List κ) where
  before := listBefore
  before_irrefl := listBefore_irrefl
  before_trans := listBefore_trans
  before_total := listBefore_total

/-- Strings by code points, which is also the order of their bytes in UTF-8. -/
instance : Key String where
  before a b := listBefore a.toList b.toList
  before_irrefl a := listBefore_irrefl a.toList
  before_trans := listBefore_trans
  before_total h h' := String.toList_inj.mp (listBefore_total h h')

end Key

/-- Pairs in strictly increasing key order: a finite map with exactly one representation. -/
structure Table (κ α : Type) [Key κ] where
  entries : List (κ × α)
  sorted : entries.Pairwise (fun p q => Key.before p.1 q.1 = true)

namespace Table

variable {κ α : Type} [Key κ]

/-! ## Sorted lists of pairs -/

/-- Puts a pair at its place in a sorted list, replacing the pair of the same key. -/
def place (k : κ) (v : α) : List (κ × α) → List (κ × α)
  | [] => [(k, v)]
  | p :: ps =>
    if Key.before k p.1 then (k, v) :: p :: ps
    else if Key.before p.1 k then p :: place k v ps
    else (k, v) :: ps

/-- The value paired with the key, if there is one. -/
def find (k : κ) : List (κ × α) → Option α
  | [] => none
  | p :: ps => if Key.before k p.1 then none else if Key.before p.1 k then find k ps else some p.2

theorem mem_place {k : κ} {v : α} {q : κ × α} : ∀ {ps : List (κ × α)}, q ∈ place k v ps → q = (k, v) ∨ q ∈ ps
  | [], h => by simpa [place] using h
  | p :: ps, h => by
    simp only [place] at h
    split at h
    · simpa using h
    · split at h
      · rcases List.mem_cons.mp h with rfl | h
        · exact .inr List.mem_cons_self
        · exact (mem_place h).imp_right (List.mem_cons_of_mem _)
      · rcases List.mem_cons.mp h with rfl | h
        · exact .inl rfl
        · exact .inr (List.mem_cons_of_mem _ h)

theorem sorted_place (k : κ) (v : α) : ∀ {ps : List (κ × α)}, ps.Pairwise (fun p q => Key.before p.1 q.1 = true) →
    (place k v ps).Pairwise (fun p q => Key.before p.1 q.1 = true)
  | [], _ => by simp [place]
  | p :: ps, h => by
    obtain ⟨hp, hps⟩ := List.pairwise_cons.mp h
    simp only [place]
    split
    · next hk =>
      refine List.pairwise_cons.mpr ⟨fun q hq => ?_, h⟩
      rcases List.mem_cons.mp hq with rfl | hq
      · exact hk
      · exact Key.before_trans hk (hp q hq)
    · split
      · next hk =>
        refine List.pairwise_cons.mpr ⟨fun q hq => ?_, sorted_place k v hps⟩
        rcases mem_place hq with rfl | hq
        · exact hk
        · exact hp q hq
      · next h₁ h₂ =>
        obtain rfl := Key.before_total (Bool.eq_false_iff.mpr h₁) (Bool.eq_false_iff.mpr h₂)
        exact List.pairwise_cons.mpr ⟨hp, hps⟩

theorem find_place (k k' : κ) (v : α) [DecidableEq κ] :
    ∀ {ps : List (κ × α)}, ps.Pairwise (fun p q => Key.before p.1 q.1 = true) →
      find k' (place k v ps) = if k' = k then some v else find k' ps
  | [], _ => by
    by_cases h : k' = k
    · simp [place, find, h, Key.before_irrefl]
    · simp only [place, find, h, if_false]
      split
      · rfl
      · split
        · rfl
        · next h₁ h₂ => exact absurd (Key.before_total (Bool.eq_false_iff.mpr h₁) (Bool.eq_false_iff.mpr h₂)) h
  | p :: ps, hs => by
    obtain ⟨hp, hps⟩ := List.pairwise_cons.mp hs
    simp only [place]
    by_cases hkp : Key.before k p.1 = true
    · simp only [hkp, if_true, find]
      by_cases h : k' = k
      · simp [h, Key.before_irrefl]
      · simp only [h, if_false]
        by_cases h₁ : Key.before k' k = true
        · simp [h₁, Key.before_trans h₁ hkp]
        · by_cases h₂ : Key.before k k' = true
          · simp [h₁, h₂]
          · exact absurd (Key.before_total (Bool.eq_false_iff.mpr h₁) (Bool.eq_false_iff.mpr h₂)) h
    · by_cases hpk : Key.before p.1 k = true
      · simp only [hkp, hpk, if_false, if_true, find, find_place k k' v hps, Bool.false_eq_true]
        by_cases h : k' = k
        · subst h; simp [hpk, hkp]
        · simp [h]
      · obtain rfl := Key.before_total (Bool.eq_false_iff.mpr hkp) (Bool.eq_false_iff.mpr hpk)
        simp only [Key.before_irrefl, find, Bool.false_eq_true, if_false]
        by_cases h : k' = p.1
        · subst h; simp [Key.before_irrefl]
        · simp only [h, if_false]
          by_cases h₁ : Key.before k' p.1 = true
          · simp [h₁]
          · by_cases h₂ : Key.before p.1 k' = true
            · simp [h₁, h₂]
            · exact absurd (Key.before_total (Bool.eq_false_iff.mpr h₁) (Bool.eq_false_iff.mpr h₂)) h

/-- In a sorted list the value found for a key is that of its pair. -/
theorem find_eq_some_iff {k : κ} {v : α} : ∀ {ps : List (κ × α)},
    ps.Pairwise (fun p q => Key.before p.1 q.1 = true) → (find k ps = some v ↔ (k, v) ∈ ps)
  | [], _ => by simp [find]
  | p :: ps, hs => by
    obtain ⟨hp, hps⟩ := List.pairwise_cons.mp hs
    simp only [find, List.mem_cons]
    by_cases h₁ : Key.before k p.1 = true
    · simp only [h₁, if_true]
      refine ⟨fun h => by simp at h, fun h => ?_⟩
      rcases h with rfl | h
      · simp [Key.before_irrefl] at h₁
      · exact absurd (Key.before_trans h₁ (hp _ h)) (by simp [Key.before_irrefl])
    · by_cases h₂ : Key.before p.1 k = true
      · simp only [h₁, h₂, Bool.false_eq_true, if_false, if_true, find_eq_some_iff hps]
        refine ⟨.inr, fun h => h.resolve_left ?_⟩
        rintro rfl
        exact h₁ h₂
      · simp only [h₁, h₂, Bool.false_eq_true, if_false]
        obtain rfl := Key.before_total (Bool.eq_false_iff.mpr h₁) (Bool.eq_false_iff.mpr h₂)
        refine ⟨fun h => .inl (by cases h; rfl), fun h => ?_⟩
        rcases h with h | h
        · rw [← h]
        · exact absurd (hp _ h) (by simp [Key.before_irrefl])

/-- Sorted lists with the same members are the same list. -/
theorem eq_of_mem_iff : ∀ {ps qs : List (κ × α)}, ps.Pairwise (fun p q => Key.before p.1 q.1 = true) →
    qs.Pairwise (fun p q => Key.before p.1 q.1 = true) → (∀ r, r ∈ ps ↔ r ∈ qs) → ps = qs
  | [], [], _, _, _ => rfl
  | [], q :: qs, _, _, h => by simpa using (h q).mpr List.mem_cons_self
  | p :: ps, [], _, _, h => by simpa using (h p).mp List.mem_cons_self
  | p :: ps, q :: qs, hp, hq, h => by
    obtain ⟨hp₁, hp₂⟩ := List.pairwise_cons.mp hp
    obtain ⟨hq₁, hq₂⟩ := List.pairwise_cons.mp hq
    have heq : p = q := by
      rcases List.mem_cons.mp ((h p).mp List.mem_cons_self) with e | e
      · exact e
      · rcases List.mem_cons.mp ((h q).mpr List.mem_cons_self) with e' | e'
        · exact e'.symm
        · exact absurd (Key.before_trans (hq₁ _ e) (hp₁ _ e')) (by simp [Key.before_irrefl])
    subst heq
    refine congrArg (p :: ·) (eq_of_mem_iff hp₂ hq₂ fun r => ⟨fun hr => ?_, fun hr => ?_⟩)
    · rcases List.mem_cons.mp ((h r).mp (List.mem_cons_of_mem _ hr)) with rfl | hr'
      · exact absurd (hp₁ _ hr) (by simp [Key.before_irrefl])
      · exact hr'
    · rcases List.mem_cons.mp ((h r).mpr (List.mem_cons_of_mem _ hr)) with rfl | hr'
      · exact absurd (hq₁ _ hr) (by simp [Key.before_irrefl])
      · exact hr'

/-! ## Operations -/

/-- The table without pairs. -/
def empty : Table κ α := ⟨[], .nil⟩

/-- The value of a key. -/
def get? (t : Table κ α) (k : κ) : Option α := find k t.entries

/-- Gives a key a value, in place of the one it may have had. -/
def insert (t : Table κ α) (k : κ) (v : α) : Table κ α := ⟨place k v t.entries, sorted_place k v t.sorted⟩

/-- The number of keys. -/
def size (t : Table κ α) : Nat := t.entries.length

@[simp] theorem get?_empty (k : κ) : (empty : Table κ α).get? k = none := rfl

@[simp] theorem get?_insert [DecidableEq κ] (t : Table κ α) (k k' : κ) (v : α) :
    (t.insert k v).get? k' = if k' = k then some v else t.get? k' := find_place k k' v t.sorted

theorem get?_eq_some_iff (t : Table κ α) {k : κ} {v : α} : t.get? k = some v ↔ (k, v) ∈ t.entries :=
  find_eq_some_iff t.sorted

/-- Tables in which every key has the same value are equal. -/
theorem ext_get? {t u : Table κ α} (h : ∀ k, t.get? k = u.get? k) : t = u := by
  obtain ⟨ps, hps⟩ := t
  obtain ⟨qs, hqs⟩ := u
  congr
  refine eq_of_mem_iff hps hqs fun ⟨k, v⟩ => ?_
  have hk : find k ps = find k qs := h k
  rw [← find_eq_some_iff hps, ← find_eq_some_iff hqs, hk]

instance [DecidableEq κ] [DecidableEq α] : DecidableEq (Table κ α)
  | ⟨ps, _⟩, ⟨qs, _⟩ =>
    if h : ps = qs then isTrue (by subst h; rfl) else isFalse (fun e => h (congrArg Table.entries e))

end Table
end Stencil
