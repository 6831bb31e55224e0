import Sisfila.Framework.Listed

namespace Sisfila

namespace Table

variable {ρ ρ' : Type} [Row ρ] [Row ρ']

def keys (t : Table ρ) : List Nat := t.rows.map Row.key

@[simp] theorem keys_map (t : Table ρ) (f : ρ → ρ') (hf : ∀ r,Row.key (f r)=Row.key r) :
    (t.map f hf).keys=t.keys := by
  simp only [keys,map_rows,List.map_map]
  exact List.map_congr_left (fun r _ => hf r)

@[simp] theorem keys_modify (t : Table ρ) (i : Nat) (f : ρ → ρ)
    (hf : ∀ r,Row.key (f r)=Row.key r) : (t.modify i f hf).keys=t.keys := keys_map t _ _

@[simp] theorem keys_insert (t : Table ρ) (mk : Nat → ρ) (hk : ∀ n,Row.key (mk n)=n) :
    (t.insert mk hk).keys=t.keys++[t.next] := by
  simp [keys,hk]

@[simp] theorem keys_delete (t : Table ρ) (i : Nat) :
    (t.delete i).keys=t.keys.filter (fun j => j != i) := by
  simp only [keys,delete_rows,List.filter_map]
  rfl

theorem keys_subset_insert (t : Table ρ) (mk : Nat → ρ) (hk : ∀ n,Row.key (mk n)=n) :
    t.keys ⊆ (t.insert mk hk).keys := by
  rw [keys_insert]
  exact List.subset_append_left _ _

theorem keys_subset_modify (t : Table ρ) (i : Nat) (f : ρ → ρ) (hf : ∀ r,Row.key (f r)=Row.key r) :
    t.keys ⊆ (t.modify i f hf).keys := by
  rw [keys_modify]
  exact List.Subset.refl _

theorem mem_keys_of_find {t : Table ρ} {i : Nat} {r : ρ} (h : t.find i=some r) : i ∈ t.keys := by
  obtain ⟨hr,rfl⟩ := (t.find_eq_some_iff i r).mp h
  exact List.mem_map_of_mem hr

section listed

variable [Listed ρ]

@[simp] theorem keys_remove (S : ρ → Bool) (r : ρ) (t : Table ρ) :
    (t.remove S r).keys=t.keys.filter (fun j => j != Row.key r) := by
  rw [remove,closeGap,keys_map,keys_delete]

@[simp] theorem keys_moveTo (S : ρ → Bool) (r : ρ) (q : Option Int) (t : Table ρ) :
    (t.moveTo S r q).keys=t.keys := keys_map t _ _

end listed

end Table

/-- Every value of the column that is not NULL is the key of a row of `u`. -/
def Refers {ρ υ : Type} [Row ρ] [Row υ] (col : ρ → Option Nat) (t : Table ρ) (u : Table υ) :
    Prop := ∀ r ∈ t.rows,∀ i ∈ col r,i ∈ u.keys

instance {ρ υ : Type} [Row ρ] [Row υ] (col : ρ → Option Nat) (t : Table ρ) (u : Table υ) :
    Decidable (Refers col t u) := inferInstanceAs (Decidable (∀ r ∈ t.rows,∀ i ∈ col r,i ∈ u.keys))

namespace Refers

variable {ρ υ : Type} [Row ρ] [Row υ] {col : ρ → Option Nat} {t : Table ρ} {u : Table υ}

/-! Writes to the table referred to. -/

theorem of_keys {u' : Table υ} (h : Refers col t u) (hu : u'.keys=u.keys) : Refers col t u' :=
  fun r hr i hi => hu ▸ h r hr i hi

theorem of_insert (h : Refers col t u) {mk : Nat → υ} (hk : ∀ n,Row.key (mk n)=n) :
    Refers col t (u.insert mk hk) := by
  intro r hr i hi
  rw [Table.keys_insert]
  exact List.mem_append_left _ (h r hr i hi)

/-- Only the deletion of a key still in use leaves a reference to nothing. -/
theorem of_filter {u' : Table υ} {i : Nat} (h : Refers col t u)
    (hu : u'.keys=u.keys.filter (fun j => j != i)) (hi : ∀ r ∈ t.rows,col r≠some i) :
    Refers col t u' := by
  intro r hr j hj
  rw [hu,List.mem_filter,bne_iff_ne]
  refine ⟨h r hr j hj,?_⟩
  rintro rfl
  exact hi r hr hj

/-! Writes to the table that refers. -/

theorem of_rows {t' : Table ρ} (h : Refers col t u) (ht : ∀ r ∈ t'.rows,∃ w ∈ t.rows,col r=col w) :
    Refers col t' u := by
  intro r hr i hi
  obtain ⟨w,hw,he⟩ := ht r hr
  exact h w hw i (he ▸ hi)

theorem map (h : Refers col t u) {f : ρ → ρ} (hf : ∀ r,Row.key (f r)=Row.key r)
    (hc : ∀ r,∀ i ∈ col (f r),i ∈ col r ∨ i ∈ u.keys) : Refers col (t.map f hf) u := by
  intro r hr i hi
  obtain ⟨w,hw,rfl⟩ := List.mem_map.mp hr
  rcases hc w i hi with hi | hi
  · exact h w hw i hi
  · exact hi

theorem modify (h : Refers col t u) (n : Nat) (f : ρ → ρ) (hf : ∀ r,Row.key (f r)=Row.key r)
    (hc : ∀ r,∀ i ∈ col (f r),i ∈ col r ∨ i ∈ u.keys) : Refers col (t.modify n f hf) u := by
  refine h.map _ ?_
  intro r i hi
  split_ifs at hi
  · exact hc r i hi
  · exact Or.inl hi

/-- An UPDATE of other columns. -/
theorem modify_of_eq (h : Refers col t u) (n : Nat) (f : ρ → ρ)
    (hf : ∀ r,Row.key (f r)=Row.key r) (hc : ∀ r,col (f r)=col r) :
    Refers col (t.modify n f hf) u :=
  h.modify n f hf (fun r _ hi => Or.inl (hc r ▸ hi))

theorem insert (h : Refers col t u) {mk : Nat → ρ} (hk : ∀ n,Row.key (mk n)=n)
    (hc : ∀ i ∈ col (mk t.next),i ∈ u.keys) : Refers col (t.insert mk hk) u := by
  intro r hr i hi
  rcases List.mem_append.mp hr with hr | hr
  · exact h r hr i hi
  · rw [List.mem_singleton.mp hr] at hi
    exact hc i hi

theorem delete (h : Refers col t u) (n : Nat) : Refers col (t.delete n) u :=
  h.of_rows (fun r hr => ⟨r,List.mem_of_mem_filter hr,rfl⟩)

section listed

variable [Listed ρ] (hp : ∀ p w,col (Listed.put p w)=col w)

include hp in
theorem remove (h : Refers col t u) (S : ρ → Bool) (r : ρ) : Refers col (t.remove S r) u := by
  unfold Table.remove Table.closeGap
  refine (h.delete (Row.key r)).map _ ?_
  intro w i hi
  rw [Table.closeRow_of_put hp] at hi
  exact Or.inl hi

include hp in
theorem moveTo (h : Refers col t u) (S : ρ → Bool) (r : ρ) (q : Option Int) :
    Refers col (t.moveTo S r q) u := by
  unfold Table.moveTo
  refine h.map _ ?_
  intro w i hi
  rw [Table.moveRow_of_put hp] at hi
  exact Or.inl hi

end listed

end Refers

end Sisfila
