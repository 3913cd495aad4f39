/-!
# Entries in insertion order

Tables whose order can be seen are lists of keys with values. A key that is put
again keeps its place and takes the new value.
-/

namespace Forecast

/-- A table in insertion order. -/
abbrev Entries (α : Type) := List (String × α)

namespace Entries

variable {α β : Type}

/-- Sets the value of a key, at its place if it is known and at the end if not. -/
def put (key : String) (value : α) : Entries α → Entries α
  | [] => [(key, value)]
  | (k, v) :: rest => if k = key then (k, value) :: rest else (k, v) :: put key value rest

def adjust (key : String) (f : α → α) : Entries α → Entries α
  | [] => []
  | (k, v) :: rest => if k = key then (k, f v) :: rest else (k, v) :: adjust key f rest

def ofList (entries : List (String × α)) : Entries α :=
  entries.foldl (fun t e => put e.1 e.2 t) []

/-- Adds the entries, in order, whose keys are not taken. -/
def addMissing (t more : Entries α) : Entries α :=
  more.foldl (fun t e => if (t.lookup e.1).isSome then t else t ++ [e]) t

def keys (t : Entries α) : List String :=
  t.map (·.1)

def has (t : Entries α) (key : String) : Bool :=
  (t.lookup key).isSome

def mapValues (f : α → β) (t : Entries α) : Entries β :=
  t.map fun e => (e.1, f e.2)

theorem lookup_put (key other : String) (value : α) (t : Entries α) :
    (put key value t).lookup other = if other = key then some value else t.lookup other := by
  induction t with
  | nil =>
    by_cases h : other = key
    · subst h
      simp [put]
    · have : (other == key) = false := by simpa using h
      simp [put, List.lookup_cons, this, h]
  | cons e rest ih =>
    obtain ⟨k, v⟩ := e
    by_cases hk : k = key
    · subst hk
      by_cases h : other = k
      · subst h
        simp [put]
      · have : (other == k) = false := by simpa using h
        simp [put, List.lookup_cons, this, h]
    · by_cases h : other = k
      · subst h
        simp [put, hk]
      · have : (other == k) = false := by simpa using h
        simp [put, hk, List.lookup_cons, this, ih]

theorem keys_put (key : String) (value : α) (t : Entries α) :
    (put key value t).keys = if key ∈ t.keys then t.keys else t.keys ++ [key] := by
  induction t with
  | nil => simp [put, keys]
  | cons e rest ih =>
    obtain ⟨k, v⟩ := e
    by_cases hk : k = key
    · simp [put, hk, keys]
    · have hk' : ¬key = k := fun h => hk h.symm
      simp only [keys, put, hk, if_false, List.map_cons, List.mem_cons, hk', false_or] at ih ⊢
      rw [ih]
      split <;> simp_all

theorem mem_keys_put (key other : String) (value : α) (t : Entries α) :
    other ∈ (put key value t).keys ↔ other = key ∨ other ∈ t.keys := by
  rw [keys_put]
  split
  · rename_i known
    constructor
    · exact .inr
    · rintro (rfl | h)
      · exact known
      · exact h
  · rw [List.mem_append, List.mem_singleton, or_comm]

@[simp] theorem keys_adjust (key : String) (f : α → α) (t : Entries α) :
    (adjust key f t).keys = t.keys := by
  induction t with
  | nil => rfl
  | cons e rest ih =>
    obtain ⟨k, v⟩ := e
    by_cases hk : k = key
    · simp [adjust, hk, keys]
    · simpa [adjust, hk, keys] using ih

@[simp] theorem keys_mapValues (f : α → β) (t : Entries α) : (mapValues f t).keys = t.keys := by
  simp [mapValues, keys]

@[simp] theorem keys_append (s t : Entries α) : (s ++ t : Entries α).keys = s.keys ++ t.keys :=
  List.map_append

theorem keys_flatMap {γ : Type} (f : γ → Entries α) (l : List γ) :
    keys (l.flatMap f) = l.flatMap fun x => (f x).keys :=
  List.map_flatMap

theorem has_iff {t : Entries α} {key : String} : t.has key = true ↔ key ∈ t.keys := by
  simp only [has, List.lookup_isSome_iff, keys, List.mem_map, beq_iff_eq]
  constructor
  · rintro ⟨e, he, rfl⟩
    exact ⟨e, he, rfl⟩
  · rintro ⟨e, he, rfl⟩
    exact ⟨e, he, rfl⟩

theorem exists_lookup {t : Entries α} {key : String} (h : key ∈ t.keys) :
    ∃ value, t.lookup key = some value := by
  rwa [← has_iff, has, Option.isSome_iff_exists] at h

theorem mem_keys_of_lookup {t : Entries α} {key : String} {value : α}
    (h : t.lookup key = some value) : key ∈ t.keys := by
  rw [← has_iff, has, h]
  rfl

theorem lookup_eq_none {t : Entries α} {key : String} : t.lookup key = none ↔ key ∉ t.keys := by
  rw [← has_iff, has]
  cases t.lookup key <;> simp

theorem mem_of_lookup {t : Entries α} {key : String} {value : α} (h : t.lookup key = some value) :
    (key, value) ∈ t := by
  obtain ⟨before, after, rfl, -⟩ := List.lookup_eq_some_iff.1 h
  simp

theorem lookup_of_mem {t : Entries α} {key : String} {value : α} (distinct : t.keys.Nodup)
    (h : (key, value) ∈ t) : t.lookup key = some value := by
  obtain ⟨before, after, rfl⟩ := List.append_of_mem h
  apply List.lookup_eq_some_iff.2
  refine ⟨before, after, rfl, ?_⟩
  intro e he
  simp only [keys, List.map_append, List.map_cons, List.nodup_append] at distinct
  have := distinct.2.2 e.1 (List.mem_map_of_mem he) key (by simp)
  simpa using this.symm

theorem lookup_eq_of_perm {t t' : Entries α} (perm : t'.Perm t) (distinct : t.keys.Nodup)
    (key : String) : t'.lookup key = t.lookup key := by
  have keys : t'.keys.Perm t.keys := perm.map _
  cases found : t.lookup key with
  | none =>
    rw [lookup_eq_none] at found ⊢
    exact fun mem => found (keys.subset mem)
  | some value =>
    exact lookup_of_mem (keys.nodup_iff.2 distinct) (perm.mem_iff.2 (mem_of_lookup found))

theorem lookup_mapValues (f : α → β) (t : Entries α) (key : String) :
    (mapValues f t).lookup key = (t.lookup key).map f := by
  induction t with
  | nil => rfl
  | cons e t ih =>
    obtain ⟨k, v⟩ := e
    simp only [mapValues, List.map_cons, List.lookup_cons] at ih ⊢
    cases key == k <;> simp [ih]

theorem getD_lookup_mapValues (f : α → β) (t : Entries α) (key : String) (default : α) :
    ((mapValues f t).lookup key).getD (f default) = f ((t.lookup key).getD default) := by
  rw [lookup_mapValues]
  cases t.lookup key <;> rfl

theorem put_of_notMem {t : Entries α} {key : String} (value : α) (h : key ∉ t.keys) :
    put key value t = t ++ [(key, value)] := by
  induction t with
  | nil => rfl
  | cons e t ih =>
    obtain ⟨k, v⟩ := e
    simp only [keys, List.map_cons, List.mem_cons, not_or] at h
    have hk : ¬k = key := fun eq => h.1 eq.symm
    simp [put, hk, ih h.2]

theorem put_of_lookup {t : Entries α} {key : String} {value : α} (h : t.lookup key = some value) :
    put key value t = t := by
  induction t with
  | nil => simp at h
  | cons e t ih =>
    obtain ⟨k, v⟩ := e
    rw [List.lookup_cons] at h
    by_cases hk : k = key
    · subst hk
      simp only [beq_self_eq_true, Option.some.injEq] at h
      simp [put, h]
    · have ne : (key == k) = false := by simpa using Ne.symm hk
      rw [ne] at h
      simp [put, hk, ih h]

theorem mem_of_mem_put {t : Entries α} {key : String} {value : α} {e : String × α}
    (h : e ∈ put key value t) : e = (key, value) ∨ e ∈ t := by
  induction t with
  | nil => exact .inl (List.mem_singleton.1 h)
  | cons first t ih =>
    unfold put at h
    split at h
    · rename_i same
      rcases List.mem_cons.1 h with rfl | h
      · exact .inl (by rw [same])
      · exact .inr (List.mem_cons_of_mem _ h)
    · rcases List.mem_cons.1 h with rfl | h
      · exact .inr (by simp)
      · exact (ih h).imp_right (List.mem_cons_of_mem _)

theorem mapValues_put (f : α → β) (key : String) (value : α) (t : Entries α) :
    mapValues f (put key value t) = put key (f value) (mapValues f t) := by
  induction t with
  | nil => rfl
  | cons e t ih =>
    obtain ⟨k, v⟩ := e
    unfold mapValues at ih ⊢
    simp only [put, List.map_cons]
    split <;> simp [ih]

theorem mapValues_mapValues {γ : Type} (f : α → β) (g : β → γ) (t : Entries α) :
    mapValues g (mapValues f t) = mapValues (fun x => g (f x)) t := by
  simp [mapValues]

theorem mapValues_foldl_put (f : α → β) (key : String → String) (entries t : Entries α) :
    mapValues f (entries.foldl (fun t e => put (key e.1) e.2 t) t) =
      (mapValues f entries).foldl (fun t e => put (key e.1) e.2 t) (mapValues f t) := by
  induction entries generalizing t with
  | nil => rfl
  | cons e entries ih =>
    rw [List.foldl_cons, ih, mapValues_put]
    rfl

theorem mapValues_ofList (f : α → β) (entries : List (String × α)) :
    mapValues f (ofList entries) = ofList (mapValues f entries) :=
  mapValues_foldl_put f id entries []

/-- What is in a table after entries are put was there before, or is one of these. -/
theorem mem_of_mem_foldl_put (key : String → String) {entries t : Entries α} {e : String × α}
    (h : e ∈ entries.foldl (fun t e => put (key e.1) e.2 t) t) :
    e ∈ t ∨ ∃ e' ∈ entries, e = (key e'.1, e'.2) := by
  induction entries generalizing t with
  | nil => exact .inl h
  | cons first entries ih =>
    rcases ih h with here | ⟨e', mem, rfl⟩
    · rcases mem_of_mem_put here with rfl | here
      · exact .inr ⟨first, by simp, rfl⟩
      · exact .inl here
    · exact .inr ⟨e', List.mem_cons_of_mem _ mem, rfl⟩

theorem mem_keys_foldl_put (key : String → String) {entries t : Entries α} {other : String} :
    other ∈ (entries.foldl (fun t e => put (key e.1) e.2 t) t).keys ↔
      other ∈ t.keys ∨ ∃ name ∈ entries.keys, other = key name := by
  induction entries generalizing t with
  | nil => simp [keys]
  | cons first entries ih =>
    rw [List.foldl_cons, ih, mem_keys_put]
    simp only [keys, List.map_cons, List.mem_cons, exists_eq_or_imp, or_assoc]
    constructor
    · rintro (rfl | old | new)
      · exact .inr (.inl rfl)
      · exact .inl old
      · exact .inr (.inr new)
    · rintro (old | rfl | new)
      · exact .inr (.inl old)
      · exact .inl rfl
      · exact .inr (.inr new)

theorem mem_of_mem_ofList {entries : List (String × α)} {e : String × α} (h : e ∈ ofList entries) :
    e ∈ entries := by
  rcases mem_of_mem_foldl_put id h with h | ⟨e', mem, rfl⟩
  · simp at h
  · exact mem

theorem has_mapValues (f : α → β) (t : Entries α) (key : String) :
    (mapValues f t).has key = t.has key := by
  simp [has, lookup_mapValues]

theorem mapValues_addMissing (f : α → β) (t more : Entries α) :
    mapValues f (addMissing t more) = addMissing (mapValues f t) (mapValues f more) := by
  induction more generalizing t with
  | nil => rfl
  | cons e more ih =>
    have first : (mapValues f t).has e.1 = t.has e.1 := has_mapValues f t e.1
    simp only [has] at first
    simp only [addMissing, mapValues, List.map_cons, List.foldl_cons] at ih first ⊢
    rw [ih, first]
    split <;> simp

theorem mapValues_put_of_lookup (f : α → β) {t : Entries α} {key : String} {old new : α}
    (found : t.lookup key = some old) (same : f new = f old) :
    mapValues f (put key new t) = mapValues f t := by
  rw [mapValues_put, same, put_of_lookup]
  rw [lookup_mapValues, found, Option.map_some]

theorem nodup_keys_put {t : Entries α} (key : String) (value : α) (h : t.keys.Nodup) :
    (put key value t).keys.Nodup := by
  rw [keys_put]
  split
  · exact h
  · rename_i absent
    rw [List.nodup_append]
    refine ⟨h, by simp, ?_⟩
    intro a ha b hb eq
    simp only [List.mem_singleton] at hb
    exact absent (hb ▸ eq ▸ ha)

theorem nodup_keys_ofList (entries : List (String × α)) : (ofList entries).keys.Nodup := by
  suffices h : ∀ t : Entries α, t.keys.Nodup →
      (entries.foldl (fun t e => put e.1 e.2 t) t).keys.Nodup from h [] List.nodup_nil
  induction entries with
  | nil => exact fun t ht => ht
  | cons e entries ih => exact fun t ht => ih _ (nodup_keys_put e.1 e.2 ht)

theorem foldl_put_of_nodup {s t : Entries α} (distinct : (keys (s ++ t)).Nodup) :
    t.foldl (fun t e => put e.1 e.2 t) s = s ++ t := by
  induction t generalizing s with
  | nil => simp
  | cons e t ih =>
    have absent : e.1 ∉ s.keys := by
      intro mem
      simp only [keys_append, List.nodup_append] at distinct
      exact distinct.2.2 _ mem e.1 (by simp [keys]) rfl
    rw [List.foldl_cons, put_of_notMem e.2 absent, ih]
    · simp
    · simpa using distinct

theorem ofList_of_nodup {entries : List (String × α)} (distinct : (keys entries).Nodup) :
    ofList entries = entries :=
  foldl_put_of_nodup distinct

theorem lookup_addMissing (t more : Entries α) (key : String) :
    (addMissing t more).lookup key = (t.lookup key).or (more.lookup key) := by
  induction more generalizing t with
  | nil => simp [addMissing]
  | cons e more ih =>
    obtain ⟨k, v⟩ := e
    simp only [addMissing, List.foldl_cons] at ih ⊢
    rw [ih, List.lookup_cons]
    by_cases hk : key = k
    · subst hk
      cases h : t.lookup key with
      | none => simp [h, List.lookup_append]
      | some w => simp [h]
    · have ne : (key == k) = false := by simpa using hk
      split
      · rw [ne]
      · simp [List.lookup_append, List.lookup_cons, ne]

theorem mem_keys_addMissing {t more : Entries α} {key : String} :
    key ∈ (addMissing t more).keys ↔ key ∈ t.keys ∨ key ∈ more.keys := by
  rw [← has_iff, ← has_iff, ← has_iff, has, has, has, lookup_addMissing, Option.isSome_or,
    Bool.or_eq_true]

theorem exists_append_addMissing (t more : Entries α) : ∃ new, addMissing t more = t ++ new := by
  induction more generalizing t with
  | nil => exact ⟨[], by simp [addMissing]⟩
  | cons e more ih =>
    simp only [addMissing, List.foldl_cons] at ih ⊢
    split
    · exact ih t
    · obtain ⟨new, hnew⟩ := ih (t ++ [e])
      exact ⟨e :: new, by rw [hnew, List.append_assoc]; rfl⟩

theorem mem_of_mem_addMissing {t more : Entries α} {e : String × α} (h : e ∈ addMissing t more) :
    e ∈ t ∨ e ∈ more := by
  induction more generalizing t with
  | nil => exact .inl h
  | cons first more ih =>
    simp only [addMissing, List.foldl_cons] at ih h
    rcases ih h with old | new
    · split at old
      · exact .inl old
      · rcases List.mem_append.1 old with old | here
        · exact .inl old
        · exact .inr (List.mem_cons.2 (.inl (List.mem_singleton.1 here)))
    · exact .inr (List.mem_cons_of_mem _ new)

theorem nodup_keys_addMissing {t more : Entries α} (h : t.keys.Nodup) :
    (addMissing t more).keys.Nodup := by
  induction more generalizing t with
  | nil => exact h
  | cons e more ih =>
    simp only [addMissing, List.foldl_cons] at ih ⊢
    split
    · exact ih h
    · rename_i absent
      have new : e.1 ∉ t.keys := by rwa [← has_iff, has]
      apply ih
      rw [← put_of_notMem e.2 new]
      exact nodup_keys_put e.1 e.2 h

end Entries
end Forecast
