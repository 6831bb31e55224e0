import Mathlib.Data.List.Sort
import Mathlib.Order.Defs.LinearOrder

namespace Sisfila

/-- A row type with its primary key. -/
class Row (ρ : Type) where
  key : ρ → Nat

/-- A table in the order of its primary key. `next` is the key sequence: it lies above every key
ever given out, so a deleted key does not come back. -/
@[ext] structure Table (ρ : Type) [Row ρ] where
  rows : List ρ
  next : Nat
  ascending : rows.Pairwise (fun a b => Row.key a<Row.key b)
  below : ∀ r ∈ rows,Row.key r<next
  deriving DecidableEq

namespace Table

variable {ρ ρ' : Type} [Row ρ] [Row ρ']

def empty : Table ρ := ⟨[],1,List.Pairwise.nil,by simp⟩

/-- `find_by id:`. -/
def find (t : Table ρ) (i : Nat) : Option ρ := t.rows.find? (fun r => Row.key r==i)

/-- Rewrite every row, keeping the keys: an UPDATE, or the table seen through a projection. -/
def map (t : Table ρ) (f : ρ → ρ') (hf : ∀ r,Row.key (f r)=Row.key r) : Table ρ' where
  rows := t.rows.map f
  next := t.next
  ascending := by
    rw [List.pairwise_map]
    exact t.ascending.imp (fun h => by simpa [hf] using h)
  below := by
    intro r hr
    obtain ⟨a,ha,rfl⟩ := List.mem_map.mp hr
    rw [hf]
    exact t.below a ha

/-- UPDATE of the row with key `i`. -/
def modify (t : Table ρ) (i : Nat) (f : ρ → ρ) (hf : ∀ r,Row.key (f r)=Row.key r) : Table ρ :=
  t.map (fun r => if Row.key r=i then f r else r) (by intro r; split_ifs <;> simp [hf])

/-- INSERT with the next key of the sequence. -/
def insert (t : Table ρ) (mk : Nat → ρ) (hk : ∀ n,Row.key (mk n)=n) : Table ρ where
  rows := t.rows++[mk t.next]
  next := t.next+1
  ascending := by
    refine List.pairwise_append.mpr ⟨t.ascending,List.pairwise_singleton _ _,?_⟩
    intro a ha b hb
    rw [List.mem_singleton.mp hb,hk]
    exact t.below a ha
  below := by
    intro r hr
    rcases List.mem_append.mp hr with h | h
    · exact Nat.lt_succ_of_lt (t.below r h)
    · rw [List.mem_singleton.mp h,hk]
      exact Nat.lt_succ_self _

/-- DELETE of the row with key `i`; its key is not given out again. -/
def delete (t : Table ρ) (i : Nat) : Table ρ where
  rows := t.rows.filter (fun r => Row.key r != i)
  next := t.next
  ascending := t.ascending.filter _
  below := fun r hr => t.below r (List.mem_of_mem_filter hr)

@[simp] theorem map_rows (t : Table ρ) (f : ρ → ρ') (hf) : (t.map f hf).rows=t.rows.map f := rfl
@[simp] theorem map_next (t : Table ρ) (f : ρ → ρ') (hf) : (t.map f hf).next=t.next := rfl
@[simp] theorem modify_rows (t : Table ρ) (i : Nat) (f : ρ → ρ) (hf) :
    (t.modify i f hf).rows=t.rows.map (fun r => if Row.key r=i then f r else r) := rfl
@[simp] theorem modify_next (t : Table ρ) (i : Nat) (f : ρ → ρ) (hf) :
    (t.modify i f hf).next=t.next := rfl
@[simp] theorem delete_rows (t : Table ρ) (i : Nat) :
    (t.delete i).rows=t.rows.filter (fun r => Row.key r != i) := rfl
@[simp] theorem delete_next (t : Table ρ) (i : Nat) : (t.delete i).next=t.next := rfl
@[simp] theorem insert_rows (t : Table ρ) (mk : Nat → ρ) (hk) :
    (t.insert mk hk).rows=t.rows++[mk t.next] := rfl
@[simp] theorem insert_next (t : Table ρ) (mk : Nat → ρ) (hk) :
    (t.insert mk hk).next=t.next+1 := rfl

theorem rows_injective {t u : Table ρ} (hr : t.rows=u.rows) (hn : t.next=u.next) : t=u :=
  Table.ext hr hn

theorem key_injective (t : Table ρ) {a b : ρ} (ha : a ∈ t.rows) (hb : b ∈ t.rows)
    (h : Row.key a=Row.key b) : a=b := by
  have hn : (t.rows.map Row.key).Nodup :=
    List.Pairwise.imp (fun h => Nat.ne_of_lt h) (List.pairwise_map.mpr t.ascending)
  exact List.inj_on_of_nodup_map hn ha hb h

theorem nodup_rows (t : Table ρ) : t.rows.Nodup :=
  t.ascending.imp (fun h he => Nat.ne_of_lt h (congrArg Row.key he))

theorem find_eq_some_iff (t : Table ρ) (i : Nat) (r : ρ) :
    t.find i=some r ↔ r ∈ t.rows ∧ Row.key r=i := by
  constructor
  · intro h
    exact ⟨List.mem_of_find?_eq_some h,by simpa using List.find?_some h⟩
  · rintro ⟨hm,rfl⟩
    cases h : t.find (Row.key r) with
    | none => simpa using List.find?_eq_none.mp h r hm
    | some a =>
      have ha : Row.key a=Row.key r := by simpa using List.find?_some h
      rw [t.key_injective (List.mem_of_find?_eq_some h) hm ha]

theorem mem_of_find {t : Table ρ} {i : Nat} {r : ρ} (h : t.find i=some r) : r ∈ t.rows :=
  ((t.find_eq_some_iff i r).mp h).1

theorem key_of_find {t : Table ρ} {i : Nat} {r : ρ} (h : t.find i=some r) : Row.key r=i :=
  ((t.find_eq_some_iff i r).mp h).2

theorem find_of_mem {t : Table ρ} {r : ρ} (h : r ∈ t.rows) : t.find (Row.key r)=some r :=
  (t.find_eq_some_iff _ r).mpr ⟨h,rfl⟩

theorem find_map (t : Table ρ) (f : ρ → ρ') (hf) (i : Nat) :
    (t.map f hf).find i=(t.find i).map f := by
  simp only [find,map_rows,List.find?_map,Function.comp_def,hf]

theorem find_modify (t : Table ρ) (i j : Nat) (f : ρ → ρ) (hf) :
    (t.modify i f hf).find j=(t.find j).map (fun r => if Row.key r=i then f r else r) :=
  t.find_map _ _ j

theorem find_modify_of_ne (t : Table ρ) {i j : Nat} (h : j≠i) (f : ρ → ρ) (hf) :
    (t.modify i f hf).find j=t.find j := by
  rw [find_modify]
  cases hr : t.find j with
  | none => rfl
  | some r =>
    have hk : Row.key r≠i := by
      rw [key_of_find hr]
      exact h
    rw [Option.map_some,if_neg hk]

/-- A WHERE on other columns finds the same rows after an UPDATE. -/
theorem filter_modify (t : Table ρ) (i : Nat) (f : ρ → ρ) (hf : ∀ r,Row.key (f r)=Row.key r)
    {S : ρ → Bool} (hS : ∀ r,S (f r)=S r) : (t.modify i f hf).rows.filter S=
      (t.rows.filter S).map (fun r => if Row.key r=i then f r else r) := by
  rw [modify_rows,List.filter_map]
  congr 1
  refine List.filter_congr ?_
  intro r _
  simp only [Function.comp_apply]
  split_ifs
  · exact hS r
  · rfl

/-- A projection sees an UPDATE as the UPDATE of the columns it shows. -/
theorem map_modify (t : Table ρ) (π : ρ → ρ') (hπ : ∀ r,Row.key (π r)=Row.key r) (i : Nat)
    (f : ρ → ρ) (hf : ∀ r,Row.key (f r)=Row.key r) (g : ρ' → ρ')
    (hg : ∀ r,Row.key (g r)=Row.key r) (h : ∀ r,π (f r)=g (π r)) :
    (t.modify i f hf).map π hπ=(t.map π hπ).modify i g hg := by
  refine rows_injective ?_ rfl
  simp only [map_rows,modify_rows,List.map_map]
  refine List.map_congr_left ?_
  intro r _
  simp only [Function.comp_apply,hπ]
  split_ifs
  · exact h r
  · rfl

theorem map_eq_self (t : Table ρ) {f : ρ → ρ} (hf) (h : ∀ r ∈ t.rows,f r=r) : t.map f hf=t := by
  refine rows_injective ?_ rfl
  exact (List.map_congr_left h).trans (List.map_id _)

/-- An UPDATE of one row on top of others, if it is allowed, seen as one UPDATE. -/
theorem map_modify_of_iff (t : Table ρ) {f f' g : ρ → ρ} (hf hf' hg) {i : Nat} {P : ρ → Prop}
    [DecidablePred P] {b : Bool} (h : ∀ r,f' r=if P r then g (f r) else f r)
    (hP : ∀ r ∈ t.rows,P r ↔ Row.key r=i ∧ b=true) :
    (if b=true then (t.map f hf).modify i g hg else t.map f hf)=t.map f' hf' := by
  split_ifs with hb
  · refine rows_injective ?_ rfl
    simp only [map_rows,modify_rows,List.map_map]
    refine List.map_congr_left ?_
    intro r hr
    simp only [Function.comp_apply,h,hP r hr,hf,hb,and_true]
  · refine rows_injective ?_ rfl
    refine List.map_congr_left ?_
    intro r hr
    rw [h,if_neg (fun hp => hb ((hP r hr).mp hp).2)]

end Table

/-- SQL order on a nullable column, NULL before every value. -/
def NullsFirst : Option Int → Option Int → Prop
  | none,_ => True
  | some _,none => False
  | some a,some b => a≤b

instance : DecidableRel NullsFirst
  | none,_ => isTrue trivial
  | some _,none => isFalse id
  | some a,some b => inferInstanceAs (Decidable (a≤b))

theorem NullsFirst.total (a b : Option Int) : NullsFirst a b ∨ NullsFirst b a := by
  cases a <;> cases b <;> simp [NullsFirst]
  exact Int.le_total _ _

theorem NullsFirst.trans {a b c : Option Int} (hab : NullsFirst a b) (hbc : NullsFirst b c) :
    NullsFirst a c := by
  cases a <;> cases b <;> cases c <;> simp_all [NullsFirst]
  exact Int.le_trans hab hbc

theorem NullsFirst.refl (a : Option Int) : NullsFirst a a := (NullsFirst.total a a).elim id id

theorem NullsFirst.antisymm {a b : Option Int} (hab : NullsFirst a b) (hba : NullsFirst b a) :
    a=b := by
  cases a <;> cases b <;> simp_all [NullsFirst]
  exact Int.le_antisymm hab hba

/-- The values of a nullable column in the order of SQL. -/
def Nullable : Type := Option Int

instance : LinearOrder Nullable where
  le := NullsFirst
  le_refl := NullsFirst.refl
  le_trans _ _ _ := NullsFirst.trans
  le_antisymm _ _ := NullsFirst.antisymm
  le_total := NullsFirst.total
  toDecidableLE := inferInstanceAs (DecidableRel NullsFirst)

def nullable (a : Option Int) : Nullable := a

/-- ORDER BY a nullable column; equal values stay in the order of the primary key. -/
def orderBy {ρ : Type} (col : ρ → Option Int) (l : List ρ) : List ρ :=
  l.insertionSort (fun a b => NullsFirst (col a) (col b))

theorem orderBy_perm {ρ : Type} (col : ρ → Option Int) (l : List ρ) : (orderBy col l).Perm l :=
  List.perm_insertionSort _ l

@[simp] theorem mem_orderBy {ρ : Type} (col : ρ → Option Int) (l : List ρ) (r : ρ) :
    r ∈ orderBy col l ↔ r ∈ l := (orderBy_perm col l).mem_iff

theorem orderBy_sorted {ρ : Type} (col : ρ → Option Int) (l : List ρ) :
    (orderBy col l).Pairwise (fun a b => NullsFirst (col a) (col b)) := by
  have : Std.Total (fun a b : ρ => NullsFirst (col a) (col b)) := ⟨fun a b => NullsFirst.total _ _⟩
  have : IsTrans ρ (fun a b => NullsFirst (col a) (col b)) := ⟨fun _ _ _ => NullsFirst.trans⟩
  exact List.pairwise_insertionSort _ l

/-- Rows with distinct values come in strictly increasing order. -/
theorem orderBy_strict {ρ : Type} (col : ρ → Option Int) {l : List ρ} (hl : l.Nodup)
    (hcol : ∀ r ∈ l,∀ t ∈ l,col r=col t → r=t) :
    (orderBy col l).Pairwise (fun a b => nullable (col a)<nullable (col b)) := by
  have hn : (orderBy col l).Pairwise (· ≠ ·) := (orderBy_perm col l).nodup_iff.mpr hl
  refine (List.pairwise_and_iff.mpr ⟨orderBy_sorted col l,hn⟩).imp_of_mem ?_
  rintro a b ha hb ⟨hle,hne⟩
  have hle : nullable (col a)≤nullable (col b) := hle
  refine lt_of_le_of_ne hle (fun he => hne ?_)
  exact hcol a ((mem_orderBy col l a).mp ha) b ((mem_orderBy col l b).mp hb) he

theorem orderBy_map {ρ ρ' : Type} (f : ρ → ρ') (col : ρ' → Option Int) (l : List ρ) :
    orderBy col (l.map f)=(orderBy (fun r => col (f r)) l).map f :=
  (List.map_insertionSort _ _ f l (fun _ _ _ _ => Iff.rfl)).symm

/-- An UPDATE that keeps the order of the column keeps the order of the rows. -/
theorem orderBy_map_congr {ρ : Type} {col : ρ → Option Int} {g : ρ → ρ} {l : List ρ}
    (h : ∀ a ∈ l,∀ b ∈ l,NullsFirst (col a) (col b) ↔ NullsFirst (col (g a)) (col (g b))) :
    orderBy col (l.map g)=(orderBy col l).map g :=
  (List.map_insertionSort _ _ g l h).symm

private theorem orderBy_sublist {ρ : Type} (col : ρ → Option Int) {k l : List ρ}
    (h : k.Sublist l) : (orderBy col k).Sublist (orderBy col l) := by
  have : IsTrans ρ (fun a b => NullsFirst (col a) (col b)) := ⟨fun _ _ _ => NullsFirst.trans⟩
  induction h with
  | slnil => exact List.Sublist.refl _
  | cons a _ ih => exact ih.trans (List.sublist_orderedInsert _ _)
  | cons_cons a _ ih => exact ih.orderedInsert_sublist a (orderBy_sorted col _)

/-- The sort is stable, so a WHERE may come before or after it. -/
theorem orderBy_filter {ρ : Type} (col : ρ → Option Int) (p : ρ → Bool) (l : List ρ) :
    orderBy col (l.filter p)=(orderBy col l).filter p := by
  have hs := (orderBy_sublist col (List.filter_sublist : (l.filter p).Sublist l)).filter p
  have hp : (orderBy col (l.filter p)).filter p=orderBy col (l.filter p) := by
    rw [List.filter_eq_self]
    intro a ha
    exact (List.mem_filter.mp ((mem_orderBy _ _ _).mp ha)).2
  rw [hp] at hs
  refine hs.eq_of_length ?_
  rw [(orderBy_perm _ _).length_eq,((orderBy_perm col l).filter p).length_eq]

/-- `a` comes before `b` in the order of the column, equal values by primary key. -/
def Before {ρ : Type} [Row ρ] (col : ρ → Option Int) (a b : ρ) : Prop :=
  NullsFirst (col a) (col b) ∧ (NullsFirst (col b) (col a) → Row.key a<Row.key b)

instance {ρ : Type} [Row ρ] (col : ρ → Option Int) (a b : ρ) : Decidable (Before col a b) :=
  inferInstanceAs (Decidable (_ ∧ (_ → _)))

theorem Before.asymm {ρ : Type} [Row ρ] {col : ρ → Option Int} {a b : ρ} (h : Before col a b)
    (h' : Before col b a) : False :=
  Nat.lt_asymm (h.2 h'.1) (h'.2 h.1)

private theorem orderedInsert_before {ρ : Type} [Row ρ] (col : ρ → Option Int) (a : ρ)
    {l : List ρ} (hl : l.Pairwise (Before col)) (ha : ∀ b ∈ l,Row.key a<Row.key b) :
    (l.orderedInsert (fun a b => NullsFirst (col a) (col b)) a).Pairwise (Before col) := by
  induction l with
  | nil => exact List.pairwise_singleton _ _
  | cons b l ih =>
    obtain ⟨hb,hl⟩ := List.pairwise_cons.mp hl
    rw [List.orderedInsert_cons]
    split_ifs with hab
    · refine List.pairwise_cons.mpr ⟨?_,List.pairwise_cons.mpr ⟨hb,hl⟩⟩
      intro c hc
      refine ⟨?_,fun _ => ha c hc⟩
      rcases List.mem_cons.mp hc with rfl | hc
      · exact hab
      · exact hab.trans (hb c hc).1
    · have hba : NullsFirst (col b) (col a) := (NullsFirst.total _ _).resolve_left hab
      refine List.pairwise_cons.mpr ⟨?_,ih hl (fun c hc => ha c (List.mem_cons_of_mem b hc))⟩
      intro c hc
      rcases List.mem_cons.mp ((List.perm_orderedInsert _ a l).mem_iff.mp hc) with rfl | hc
      · exact ⟨hba,fun h => absurd h hab⟩
      · exact hb c hc

/-- Rows that come by primary key are ordered with equal values by primary key. -/
theorem orderBy_before {ρ : Type} [Row ρ] (col : ρ → Option Int) {l : List ρ}
    (hl : l.Pairwise (fun a b => Row.key a<Row.key b)) :
    (orderBy col l).Pairwise (Before col) := by
  induction l with
  | nil => exact List.Pairwise.nil
  | cons a l ih =>
    obtain ⟨ha,hl⟩ := List.pairwise_cons.mp hl
    refine orderedInsert_before col a (ih hl) ?_
    intro b hb
    exact ha b ((mem_orderBy col l b).mp hb)

end Sisfila
