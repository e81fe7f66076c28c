import Mathlib

/-!
# Finite maps and loops over them

`Map κ ν` is Mathlib's association list without duplicate keys at one value type,
with the lookup laws as equations. `Map.sweep` is a loop over the entries of a map,
in the style of an iterator that changes or erases the entry it stands on;
`Map.sweep_rule` is its invariant rule.
-/

namespace SslSocks.Lib

universe u v w

/-- A finite map from `κ` to `ν`. -/
def Map (κ : Type u) (ν : Type v) := AList fun _ : κ => ν

namespace Map

variable {κ : Type u} {ν : Type v} {σ : Type w}

instance : EmptyCollection (Map κ ν) := inferInstanceAs (EmptyCollection (AList _))

instance : Inhabited (Map κ ν) := ⟨∅⟩

def entries (m : Map κ ν) : List (Sigma fun _ : κ => ν) := AList.entries m

def values (m : Map κ ν) : List ν := m.entries.map Sigma.snd

/-- Visit the entries of `m` in turn. -/
def sweep (m : Map κ ν) (visit : σ → κ → ν → σ) (s : σ) : σ :=
  m.entries.foldl (fun s entry => visit s entry.1 entry.2) s

variable [DecidableEq κ]

def lookup (m : Map κ ν) (k : κ) : Option ν := AList.lookup k m

def insert (m : Map κ ν) (k : κ) (v : ν) : Map κ ν := AList.insert k v m

def erase (m : Map κ ν) (k : κ) : Map κ ν := AList.erase k m

/-- The keys. -/
instance : Membership κ (Map κ ν) := ⟨fun m k => (m.lookup k).isSome⟩

instance (m : Map κ ν) (k : κ) : Decidable (k ∈ m) :=
  inferInstanceAs (Decidable ((m.lookup k).isSome = true))

variable {m : Map κ ν} {k k' : κ} {v v' : ν}

@[simp] theorem lookup_empty (k : κ) : (∅ : Map κ ν).lookup k = none := AList.lookup_empty k

theorem lookup_insert :
    (m.insert k v).lookup k' = if k' = k then some v else m.lookup k' := by
  split
  · rename_i same
    rw [same]
    exact AList.lookup_insert _
  · rename_i other
    exact AList.lookup_insert_ne other

theorem lookup_erase : (m.erase k).lookup k' = if k' = k then none else m.lookup k' := by
  split
  · rename_i same
    rw [same]
    exact AList.lookup_erase _ _
  · rename_i other
    exact AList.lookup_erase_ne other

@[simp] theorem lookup_insert_self : (m.insert k v).lookup k = some v := by
  rw [lookup_insert, if_pos rfl]

theorem mem_iff : k ∈ m ↔ ∃ v, m.lookup k = some v := Option.isSome_iff_exists

theorem mem_of_lookup (found : m.lookup k = some v) : k ∈ m := mem_iff.mpr ⟨v, found⟩

theorem notMem_iff : k ∉ m ↔ m.lookup k = none := Option.not_isSome_iff_eq_none

@[simp] theorem notMem_empty : k ∉ (∅ : Map κ ν) := notMem_iff.mpr (lookup_empty k)

theorem mem_insert : k' ∈ m.insert k v ↔ k' = k ∨ k' ∈ m := by
  rw [mem_iff, lookup_insert]
  split
  · rename_i same
    exact iff_of_true ⟨v, rfl⟩ (.inl same)
  · rename_i other
    rw [← mem_iff, or_iff_right other]

theorem mem_erase : k' ∈ m.erase k ↔ k' ≠ k ∧ k' ∈ m := by
  rw [mem_iff, lookup_erase]
  split
  · rename_i same
    refine iff_of_false ?_ fun both => both.1 same
    rintro ⟨_, there⟩
    cases there
  · rename_i other
    rw [← mem_iff, and_iff_right other]

/-- An entry that is left after a key was erased. -/
theorem of_lookup_erase (found : (m.erase k).lookup k' = some v) :
    k' ≠ k ∧ m.lookup k' = some v := by
  rw [lookup_erase] at found
  split at found
  · cases found
  · rename_i other
    exact ⟨other, found⟩

theorem lookup_of_mem_entries {entry : Sigma fun _ : κ => ν} (member : entry ∈ m.entries) :
    m.lookup entry.1 = some entry.2 :=
  List.mem_dlookup (AList.nodupKeys m) member

theorem mem_values : v ∈ m.values ↔ ∃ k, m.lookup k = some v := by
  constructor
  · intro member
    obtain ⟨entry, there, rfl⟩ := List.mem_map.mp member
    exact ⟨entry.1, lookup_of_mem_entries there⟩
  · rintro ⟨k, found⟩
    exact List.mem_map.mpr ⟨⟨k, v⟩, List.of_mem_dlookup found, rfl⟩

/-- **The rule of the loop.** The map swept is part of the state, and a visit
leaves the other keys of it alone, so that it finds the entry it visits as it was at
the start. What holds at the start and is kept by every visit holds at the end. -/
theorem sweep_rule {P : σ → Prop} (get : σ → Map κ ν) {visit : σ → κ → ν → σ}
    (frame : ∀ {s k v k'}, k' ≠ k → (get (visit s k v)).lookup k' = (get s).lookup k')
    {s₀ : σ} (start : P s₀)
    (keep : ∀ {s k v}, P s → (get s₀).lookup k = some v → (get s).lookup k = some v →
      P (visit s k v)) :
    P ((get s₀).sweep visit s₀) := by
  have loop : ∀ (entries : List (Sigma fun _ : κ => ν)), entries.NodupKeys →
      entries ⊆ (get s₀).entries → ∀ t, P t →
      (∀ entry ∈ entries, (get t).lookup entry.1 = some entry.2) →
      P (entries.foldl (fun s entry => visit s entry.1 entry.2) t) := by
    intro entries
    induction entries with
    | nil => intro _ _ t holds _; exact holds
    | cons entry entries ih =>
      intro nodup subset t holds there
      obtain ⟨fresh, nodup⟩ := List.nodupKeys_cons.mp nodup
      have first := lookup_of_mem_entries (subset List.mem_cons_self)
      refine ih nodup (fun _ member => subset (List.mem_cons_of_mem _ member)) _
        (keep holds first (there entry List.mem_cons_self)) fun other member => ?_
      have distinct : other.1 ≠ entry.1 := fun same =>
        fresh (same ▸ List.mem_keys_of_mem member)
      rw [frame distinct]
      exact there other (List.mem_cons_of_mem _ member)
  exact loop _ (AList.nodupKeys (get s₀)) (fun _ member => member) s₀ start
    fun _ => lookup_of_mem_entries

/-- The rule for a loop whose visits need nothing of the map but the entry. -/
theorem sweep_invariant {P : σ → Prop} {visit : σ → κ → ν → σ} {s : σ}
    (start : P s) (keep : ∀ {s k v}, P s → m.lookup k = some v → P (visit s k v)) :
    P (m.sweep visit s) := by
  have loop : ∀ entries : List (Sigma fun _ : κ => ν), entries ⊆ m.entries → ∀ t, P t →
      P (entries.foldl (fun s entry => visit s entry.1 entry.2) t) := by
    intro entries
    induction entries with
    | nil => intro _ t holds; exact holds
    | cons entry entries ih =>
      intro subset t holds
      exact ih (fun _ member => subset (List.mem_cons_of_mem _ member)) _
        (keep holds (lookup_of_mem_entries (subset List.mem_cons_self)))
  exact loop m.entries (fun _ member => member) s start

/-- The rule for the entry of one key: the other visits keep `P` before its turn and `Q`
after it. -/
theorem sweep_focus {P Q : σ → Prop} {visit : σ → κ → ν → σ} {s₀ : σ}
    (found : m.lookup k = some v) (start : P s₀)
    (before : ∀ {s k' v'}, k' ≠ k → m.lookup k' = some v' → P s → P (visit s k' v'))
    (turn : ∀ {s}, P s → Q (visit s k v))
    (after : ∀ {s k' v'}, k' ≠ k → m.lookup k' = some v' → Q s → Q (visit s k' v')) :
    Q (m.sweep visit s₀) := by
  have loop : ∀ (entries : List (Sigma fun _ : κ => ν)), entries.NodupKeys →
      entries ⊆ m.entries → ∀ t,
      ((∃ entry ∈ entries, entry.1 = k) → P t →
        Q (entries.foldl (fun s entry => visit s entry.1 entry.2) t)) ∧
      ((∀ entry ∈ entries, entry.1 ≠ k) → Q t →
        Q (entries.foldl (fun s entry => visit s entry.1 entry.2) t)) := by
    intro entries
    induction entries with
    | nil =>
      intro _ _ t
      refine ⟨?_, fun _ done => done⟩
      rintro ⟨_, none, _⟩
      cases none
    | cons entry entries ih =>
      intro nodup subset t
      obtain ⟨fresh, nodup⟩ := List.nodupKeys_cons.mp nodup
      have here := lookup_of_mem_entries (subset List.mem_cons_self)
      have rest := ih nodup fun _ member => subset (List.mem_cons_of_mem _ member)
      constructor
      · intro somewhere pre
        by_cases same : entry.1 = k
        · have value : entry.2 = v := by
            rw [same, found] at here
            exact (Option.some.inj here).symm
          refine (rest _).2 (fun other member eq => ?_) ?_
          · exact fresh (same.trans eq.symm ▸ List.mem_keys_of_mem member)
          · show Q (visit t entry.1 entry.2)
            rw [same, value]
            exact turn pre
        · refine (rest _).1 ?_ (before same here pre)
          obtain ⟨other, member, eq⟩ := somewhere
          rcases List.mem_cons.mp member with rfl | later
          · exact absurd eq same
          · exact ⟨other, later, eq⟩
      · intro nowhere post
        exact (rest _).2 (fun other member => nowhere other (List.mem_cons_of_mem _ member))
          (after (nowhere entry List.mem_cons_self) here post)
  have there : (⟨k, v⟩ : Sigma fun _ : κ => ν) ∈ m.entries := List.of_mem_dlookup found
  exact (loop m.entries (AList.nodupKeys m) (fun _ member => member) s₀).1 ⟨_, there, rfl⟩ start

end Map

end SslSocks.Lib
