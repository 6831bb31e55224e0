import Mathlib.Data.List.Nodup
import Sisfila.Framework.Numbered
import Sisfila.Framework.Table

namespace Sisfila

/-- A row with a place in a list: a nullable column that is never below 1. `put` writes it and
raises a smaller value to 1. -/
class Listed (ρ : Type) [Row ρ] where
  pos : ρ → Option Int
  put : Option Int → ρ → ρ
  one_le : ∀ r,∀ p ∈ pos r,1≤p
  pos_put : ∀ p r,pos (put p r)=p.map (max 1)
  key_put : ∀ p r,Row.key (put p r)=Row.key r

namespace Listed

attribute [simp] pos_put key_put

/-- Where the row at `p` goes when another row of its list moves from `old` to `new`. -/
def shifted (old new p : Int) : Int :=
  if old<p ∧ p≤new then p-1 else if new≤p ∧ p<old then p+1 else p

/-- The same with the row that moves. -/
def moved (old new p : Int) : Int := if p=old then new else shifted old new p

theorem moved_bounds {old new p n : Int} (ho : 1≤old ∧ old≤n) (hn : 1≤new ∧ new≤n)
    (hp : 1≤p ∧ p≤n) :
    1 ≤ moved old new p ∧ moved old new p≤n := by
  unfold moved shifted
  split_ifs <;> omega

theorem moved_injective {old new p q : Int} (h : moved old new p=moved old new q) : p=q := by
  unfold moved shifted at h
  split_ifs at h <;> omega

theorem moved_le_iff {old new p q : Int} (hp : p≠old) (hq : q≠old) :
    moved old new p ≤ moved old new q ↔ p≤q := by
  unfold moved shifted
  rw [if_neg hp,if_neg hq]
  split_ifs <;> omega

theorem moved_self (old p : Int) : moved old old p=p := by
  unfold moved shifted
  split_ifs <;> omega

end Listed

namespace Table

open Listed

variable {ρ : Type} [Row ρ] [Listed ρ]

/-- A row of list `S` past position `x` moves up by one. -/
def closeRow (S : ρ → Bool) (x : Option Int) (w : ρ) : ρ :=
  if S w && decide (∃ q ∈ pos w,∃ p ∈ x,p<q) then put ((pos w).map (· - 1)) w else w

theorem key_closeRow (S : ρ → Bool) (x : Option Int) (w : ρ) :
    Row.key (closeRow S x w)=Row.key w := by
  unfold closeRow
  split <;> simp

def closeGap (S : ρ → Bool) (x : Option Int) (t : Table ρ) : Table ρ :=
  t.map (closeRow S x) (key_closeRow S x)

/-- `acts_as_list` on destroy. -/
def remove (S : ρ → Bool) (r : ρ) (t : Table ρ) : Table ρ :=
  (t.delete (Row.key r)).closeGap S (pos r)

/-- The greatest position of the list, 0 when it has none. -/
def bottom (S : ρ → Bool) (t : Table ρ) : Nat :=
  (t.rows.filter S).foldr (fun r n => max ((pos r).getD 0).toNat n) 0

/-- Another row of the list holds the position `r` is to move to. -/
def taken (S : ρ → Bool) (r : ρ) (q : Option Int) (t : Table ρ) : Bool :=
  t.rows.any (fun w => S w && Row.key w != Row.key r && decide (∃ x ∈ q,pos w=some (max 1 x)))

/-- What a save of `r` with position `q` does to the row `w`, in a list whose bottom is `b`. -/
def moveRow (S : ρ → Bool) (r : ρ) (q : Option Int) (b : Nat) (shift : Bool) (w : ρ) : ρ :=
  if Row.key w=Row.key r then put q w
  else if S w && shift
    then put ((pos w).map (shifted ((pos r).getD (b+1)) (max 1 (q.getD 0)))) w
  else w

theorem key_moveRow (S : ρ → Bool) (r : ρ) (q : Option Int) (b : Nat) (shift : Bool) (w : ρ) :
    Row.key (moveRow S r q b shift w)=Row.key w := by
  unfold moveRow
  split_ifs <;> simp

/-- `acts_as_list` on update: the row is written first, and the rows in between give way only when
its new position is taken. A row without a position comes from below the bottom. -/
def moveTo (S : ρ → Bool) (r : ρ) (q : Option Int) (t : Table ρ) : Table ρ :=
  t.map (moveRow S r q (t.bottom S) (t.taken S r q)) (key_moveRow S r q _ _)

/-- A row of list `S` from position `x` on moves down by one. -/
def openRow (S : ρ → Bool) (x : Int) (w : ρ) : ρ :=
  if S w && decide (∃ q ∈ pos w,x≤q) then put ((pos w).map (· + 1)) w else w

theorem key_openRow (S : ρ → Bool) (x : Int) (w : ρ) : Row.key (openRow S x w)=Row.key w := by
  unfold openRow
  split <;> simp

/-- `acts_as_list` on create: below the bottom, or at a given position, which the rows from there
on leave free. -/
def insertAt (S : ρ → Bool) (q : Option Int) (mk : Nat → ρ) (hk : ∀ n,Row.key (mk n)=n)
    (t : Table ρ) : Table ρ :=
  match q with
  | none => t.insert (fun n => put (some ((t.bottom S+1 : Nat) : Int)) (mk n))
      (fun n => (key_put _ _).trans (hk n))
  | some x => (t.map (openRow S (max 1 x)) (key_openRow S _)).insert (fun n => put (some x) (mk n))
      (fun n => (key_put _ _).trans (hk n))

end Table

/-- The callbacks of `acts_as_list` on a table: a row created with a given position or none, a row
saved with a position, a row destroyed. -/
class ActsAsList (ρ : Type) [Row ρ] where
  create : (ρ → Bool) → Option Int → (mk : Nat → ρ) → (∀ n,Row.key (mk n)=n) → Table ρ → Table ρ
  save : (ρ → Bool) → ρ → Option Int → Table ρ → Table ρ
  destroy : (ρ → Bool) → ρ → Table ρ → Table ρ

/-- The callbacks as they are taken wherever a statement does not leave them open. -/
instance Table.actsAsList {ρ : Type} [Row ρ] [Listed ρ] : ActsAsList ρ where
  create S q mk hk t := t.insertAt S q mk hk
  save S r q t := t.moveTo S r q
  destroy S r t := t.remove S r

/-- The positions of the list are exactly 1, ..., n, each once, in any order. -/
def Filled {ρ : Type} (pos : ρ → Option Int) (l : List ρ) : Prop :=
  (l.map pos).Nodup ∧ ∀ r ∈ l,∃ p,pos r=some p ∧ 1≤p ∧ p≤(l.length : Int)

namespace Filled

variable {ρ : Type} {pos : ρ → Option Int} {l : List ρ}

theorem nil : Filled pos ([] : List ρ) := ⟨List.nodup_nil,by simp⟩

theorem append (h : Filled pos l) {r : ρ} (hr : pos r=some ((l.length : Int)+1)) :
    Filled pos (l++[r]) := by
  constructor
  · rw [List.map_append,List.map_singleton,List.nodup_append]
    refine ⟨h.1,List.nodup_singleton _,?_⟩
    intro p hp q hq
    obtain ⟨w,hw,rfl⟩ := List.mem_map.mp hp
    obtain ⟨x,hx,-,hle⟩ := h.2 w hw
    rw [List.mem_singleton.mp hq,hr,hx]
    intro he
    have := Option.some.inj he
    omega
  · intro w hw
    rw [List.length_append,List.length_singleton]
    rcases List.mem_append.mp hw with hw | hw
    · obtain ⟨p,hp,h1,hn⟩ := h.2 w hw
      exact ⟨p,hp,h1,by push_cast; omega⟩
    · rw [List.mem_singleton.mp hw]
      exact ⟨_,hr,by omega,by push_cast; omega⟩

/-- Rows that stay, renumbered one to one into 1, ..., n, fill their list. -/
theorem remap (h : Filled pos l) {k : List ρ} (hs : k.Sublist l) (g : ρ → ρ) (f : Int → Int)
    (hg : ∀ r ∈ k,pos (g r)=(pos r).map f)
    (hb : ∀ r ∈ k,∀ p ∈ pos r,1≤f p ∧ f p≤(k.length : Int))
    (hi : ∀ p q : Int,f p=f q → (some p ∈ k.map pos) → (some q ∈ k.map pos) → p=q) :
    Filled pos (k.map g) := by
  have hk : (k.map pos).Nodup := (hs.map pos).nodup h.1
  have hgk : (k.map g).map pos=(k.map pos).map (Option.map f) := by
    rw [List.map_map,List.map_map]
    exact List.map_congr_left (fun r hr => hg r hr)
  constructor
  · rw [hgk]
    refine hk.map_on ?_
    intro x hx y hy hxy
    obtain ⟨r,hr,rfl⟩ := List.mem_map.mp hx
    obtain ⟨w,hw,rfl⟩ := List.mem_map.mp hy
    obtain ⟨p,hp,-⟩ := h.2 r (hs.subset hr)
    obtain ⟨q,hq,-⟩ := h.2 w (hs.subset hw)
    rw [hp] at hx
    rw [hq] at hy
    rw [hp,hq] at hxy ⊢
    rw [hi p q (Option.some.inj hxy) hx hy]
  · intro w hw
    obtain ⟨r,hr,rfl⟩ := List.mem_map.mp hw
    obtain ⟨p,hp,-⟩ := h.2 r (hs.subset hr)
    obtain ⟨h1,hn⟩ := hb r hr p hp
    rw [List.length_map]
    exact ⟨f p,by rw [hg r hr,hp]; rfl,h1,hn⟩

/-- Every position up to the length is held: n different numbers in 1, ..., n leave none out. -/
theorem exists_pos (h : Filled pos l) {k : Int} (h1 : 1≤k) (hk : k≤(l.length : Int)) :
    ∃ r ∈ l,pos r=some k := by
  have hsub : l.map pos ⊆ (List.range l.length).map (fun i : Nat => some ((i : Int)+1)) := by
    intro x hx
    obtain ⟨r,hr,rfl⟩ := List.mem_map.mp hx
    obtain ⟨p,hp,hp1,hpn⟩ := h.2 r hr
    refine List.mem_map.mpr ⟨(p-1).toNat,?_,?_⟩
    · rw [List.mem_range]
      omega
    · rw [hp]
      congr 1
      omega
  have hperm := (List.subperm_of_subset h.1 hsub).perm_of_length_le (by simp)
  have hm : some k ∈ (List.range l.length).map (fun i : Nat => some ((i : Int)+1)) :=
    List.mem_map.mpr ⟨(k-1).toNat,by rw [List.mem_range]; omega,by congr 1; omega⟩
  obtain ⟨r,hr,hrk⟩ := List.mem_map.mp (hperm.mem_iff.mpr hm)
  exact ⟨r,hr,hrk⟩

/-- The bottom of a full list is its length. -/
theorem foldr_max (h : Filled pos l) :
    l.foldr (fun r n => max ((pos r).getD 0).toNat n) 0=l.length := by
  obtain ⟨hle,hat⟩ := foldr_max_spec (fun r => ((pos r).getD 0).toNat) l
  generalize l.foldr (fun r n => max ((pos r).getD 0).toNat n) 0=m at hle hat
  have hm : m≤l.length := by
    rcases hat with rfl | ⟨r,hr,rfl⟩
    · exact Nat.zero_le _
    · obtain ⟨p,hp,h1,hn⟩ := h.2 r hr
      rw [hp,Option.getD_some]
      omega
  refine Nat.le_antisymm hm ?_
  cases hl : l.length with
  | zero => exact Nat.zero_le m
  | succ n =>
    obtain ⟨r,hr,hp⟩ := h.exists_pos (k := (l.length : Int)) (by omega) le_rfl
    have hr' := hle r hr
    rw [hp,Option.getD_some] at hr'
    omega

theorem exists_above_iff (h : Filled pos l) {x : Int} (hx : 0≤x) :
    (∃ r ∈ l,∃ p ∈ pos r,x<p) ↔ x<(l.length : Int) := by
  constructor
  · rintro ⟨r,hr,p,hp,hlt⟩
    obtain ⟨q,hq,-,hn⟩ := h.2 r hr
    rw [hp] at hq
    have := Option.some.inj hq
    omega
  · intro hlt
    obtain ⟨r,hr,hp⟩ := h.exists_pos (k := (l.length : Int)) (by omega) le_rfl
    exact ⟨r,hr,_,hp,hlt⟩

end Filled

namespace Table

open Listed

variable {ρ : Type} [Row ρ] [Listed ρ] {S : ρ → Bool}

theorem le_bottom {t : Table ρ} {w : ρ} (hw : w ∈ t.rows.filter S) {x : Int} (hx : pos w=some x) :
    x≤(t.bottom S : Int) := by
  have hle := (foldr_max_spec (fun r => ((pos r).getD 0).toNat) (t.rows.filter S)).1 w hw
  rw [hx,Option.getD_some] at hle
  change x.toNat≤t.bottom S at hle
  omega

/-- The bottom is somebody's place, if anybody has one. -/
theorem bottom_attained (t : Table ρ) :
    t.bottom S=0 ∨ ∃ w ∈ t.rows.filter S,pos w=some (t.bottom S : Int) := by
  rcases (foldr_max_spec (fun r => ((pos r).getD 0).toNat) (t.rows.filter S)).2 with h0 | ⟨w,hw,he⟩
  · exact Or.inl h0
  · change ((pos w).getD 0).toNat=t.bottom S at he
    cases hp : pos w with
    | none =>
      rw [hp] at he
      exact Or.inl he.symm
    | some p =>
      have h1 := one_le w p hp
      rw [hp,Option.getD_some] at he
      exact Or.inr ⟨w,hw,by rw [hp]; congr 1; omega⟩

theorem bottom_le {t : Table ρ} {n : Nat} (h : ∀ w ∈ t.rows.filter S,∀ p ∈ pos w,p≤(n : Int)) :
    t.bottom S≤n := by
  rcases t.bottom_attained (S := S) with h0 | ⟨w,hw,hp⟩
  · omega
  · have hle := h w hw _ hp
    omega

section projection

variable {ρ' : Type} [Row ρ'] [Listed ρ'] {S' : ρ' → Bool} (f : ρ → ρ')
  (hk : ∀ r,Row.key (f r)=Row.key r) (hp : ∀ r,pos (f r)=pos r)
  (hf : ∀ p r,f (put p r)=put p (f r)) (hS : ∀ r,S' (f r)=S r)

include hp hf hS in
/-- List operations commute with a projection that keeps keys, positions and the list. -/
theorem remove_map (r : ρ) (t : Table ρ) :
    (t.remove S r).map f hk=(t.map f hk).remove S' (f r) := by
  refine rows_injective ?_ rfl
  simp only [remove,closeGap,map_rows,delete_rows,List.filter_map,List.map_map,hk,hp]
  have he : (fun w => Row.key w != Row.key r) ∘ f=fun w => Row.key w != Row.key r := by
    funext w
    simp only [Function.comp_apply,hk]
  rw [he]
  refine List.map_congr_left ?_
  intro w _
  simp only [Function.comp_apply,closeRow,hS,hp]
  split
  · exact hf _ w
  · rfl

include hp hS in
theorem bottom_map (t : Table ρ) : (t.map f hk).bottom S'=t.bottom S := by
  have hS' : S' ∘ f=S := funext hS
  simp only [bottom,map_rows,List.filter_map,List.foldr_map,hS',hp]

include hp hf hS in
theorem moveTo_map (r : ρ) (q : Option Int) (t : Table ρ) :
    (t.moveTo S r q).map f hk=(t.map f hk).moveTo S' (f r) q := by
  have hb := bottom_map f hk hp hS t
  have ht : (t.map f hk).taken S' (f r) q=t.taken S r q := by
    simp only [taken,map_rows,List.any_map,Function.comp_def,hk,hp,hS]
  refine rows_injective ?_ rfl
  simp only [moveTo,map_rows,List.map_map,hb,ht]
  refine List.map_congr_left ?_
  intro w _
  simp only [Function.comp_apply,moveRow,hk,hp,hS]
  split_ifs
  · exact hf _ w
  · exact hf _ w
  · rfl

end projection

section scope

/-- What the list column does not decide stays as it is. -/
theorem closeRow_of_put {β : Type} {g : ρ → β} (hg : ∀ p w,g (put p w)=g w) (x : Option Int)
    (w : ρ) : g (closeRow S x w)=g w := by
  unfold closeRow
  split <;> simp [hg]

theorem moveRow_of_put {β : Type} {g : ρ → β} (hg : ∀ p w,g (put p w)=g w) (r : ρ)
    (q : Option Int) (b : Nat) (shift : Bool) (w : ρ) : g (moveRow S r q b shift w)=g w := by
  unfold moveRow
  split_ifs <;> simp [hg]

variable {U : ρ → Bool} (hU : ∀ p w,U (put p w)=U w)

include hU in
/-- A scope the list column does not decide keeps its rows, without the deleted one. -/
theorem filter_remove (r : ρ) (t : Table ρ) : (t.remove S r).rows.filter U=
    ((t.rows.filter U).filter (fun w => Row.key w != Row.key r)).map (closeRow S (pos r)) := by
  simp only [remove,closeGap,map_rows,delete_rows,List.filter_map,List.filter_filter]
  congr 1
  refine List.filter_congr ?_
  intro w _
  simp only [Function.comp_apply,closeRow_of_put hU]
  exact Bool.and_comm _ _

include hU in
theorem filter_moveTo (r : ρ) (q : Option Int) (t : Table ρ) : (t.moveTo S r q).rows.filter U=
    (t.rows.filter U).map (moveRow S r q (t.bottom S) (t.taken S r q)) := by
  simp only [moveTo,map_rows,List.filter_map]
  congr 1
  refine List.filter_congr ?_
  intro w _
  simp only [Function.comp_apply,moveRow_of_put hU]

include hU in
/-- A list that shares no row with `S` is as it was. -/
theorem filter_remove_of_disjoint {r : ρ} {t : Table ρ} (hd : ∀ w,U w=true → S w=false)
    (hr : U r=false) (hm : r ∈ t.rows) : (t.remove S r).rows.filter U=t.rows.filter U := by
  rw [filter_remove hU]
  have hne : (t.rows.filter U).filter (fun w => Row.key w != Row.key r)=t.rows.filter U := by
    rw [List.filter_eq_self]
    intro w hw
    obtain ⟨hw,hu⟩ := List.mem_filter.mp hw
    rw [bne_iff_ne]
    intro hk
    rw [t.key_injective hw hm hk,hr] at hu
    cases hu
  rw [hne]
  have hid : ∀ w ∈ t.rows.filter U,closeRow S (pos r) w=w := by
    intro w hw
    unfold closeRow
    rw [hd w (List.mem_filter.mp hw).2]
    rfl
  rw [List.map_congr_left hid,List.map_id']

include hU in
theorem filter_moveTo_of_disjoint {r : ρ} {q : Option Int} {t : Table ρ}
    (hd : ∀ w,U w=true → S w=false) (hr : U r=false) (hm : r ∈ t.rows) :
    (t.moveTo S r q).rows.filter U=t.rows.filter U := by
  rw [filter_moveTo hU]
  have hid : ∀ w ∈ t.rows.filter U,moveRow S r q (t.bottom S) (t.taken S r q) w=w := by
    intro w hw
    obtain ⟨hw,hu⟩ := List.mem_filter.mp hw
    have hk : Row.key w≠Row.key r := by
      intro hk
      rw [t.key_injective hw hm hk,hr] at hu
      cases hu
    unfold moveRow
    rw [if_neg hk,hd w hu]
    rfl
  rw [List.map_congr_left hid,List.map_id']

end scope

/-- An UPDATE of other columns leaves a full list full. -/
theorem filled_modify {t : Table ρ} (i : Nat) (f : ρ → ρ) (hk : ∀ w,Row.key (f w)=Row.key w)
    (hS : ∀ w,S (f w)=S w) (hp : ∀ w,pos (f w)=pos w) (h : Filled pos (t.rows.filter S)) :
    Filled pos ((t.modify i f hk).rows.filter S) := by
  rw [filter_modify t i f hk hS]
  refine h.remap (List.Sublist.refl _) _ id ?_ ?_ (fun _ _ he _ _ => he)
  · intro w _
    rw [Option.map_id,id]
    split_ifs
    · exact hp w
    · rfl
  · intro w hw x hx
    obtain ⟨y,hy,h1,hn⟩ := h.2 w hw
    obtain rfl : x=y := Option.some.inj ((Option.mem_def.mp hx).symm.trans hy)
    exact ⟨h1,hn⟩

/-- A renumbering that keeps the order of the positions keeps the order of the rows. -/
theorem keys_orderBy_remap {l : List ρ} {g : ρ → ρ} (hk : ∀ w,Row.key (g w)=Row.key w)
    {f : Int → Int} (hg : ∀ w ∈ l,∃ p,pos w=some p ∧ pos (g w)=some (f p))
    (hf : ∀ p q,some p ∈ l.map pos → some q ∈ l.map pos → (f p≤f q ↔ p≤q)) :
    (orderBy pos (l.map g)).map Row.key=(orderBy pos l).map Row.key := by
  have hord : orderBy pos (l.map g)=(orderBy pos l).map g := by
    apply orderBy_map_congr
    intro a ha b hb
    obtain ⟨p,hp,hgp⟩ := hg a ha
    obtain ⟨q,hq,hgq⟩ := hg b hb
    have hle := hf p q (hp ▸ List.mem_map_of_mem ha) (hq ▸ List.mem_map_of_mem hb)
    rw [hp,hq,hgp,hgq]
    exact hle.symm
  rw [hord,List.map_map]
  exact List.map_congr_left (fun w _ => hk w)

section filled

variable {t : Table ρ} {r : ρ} (hS : ∀ p w,S (put p w)=S w) (hm : r ∈ t.rows) (hr : S r=true)
  (hf : Filled pos (t.rows.filter S))

omit [Listed ρ] in
/-- Leaving out one key is leaving out one place. -/
theorem filter_ne_eq_eraseIdx {k : Nat} (hk : (t.rows.filter S)[k]?=some r) :
    (t.rows.filter S).filter (fun w => Row.key w != Row.key r)=(t.rows.filter S).eraseIdx k := by
  have hn : ((t.rows.filter S).map Row.key).Nodup :=
    List.Pairwise.imp (fun h => Nat.ne_of_lt h)
      (List.pairwise_map.mpr (t.ascending.filter (fun w => S w)))
  generalize t.rows.filter S=l at hn hk
  induction l generalizing k with
  | nil => simp at hk
  | cons w l ih =>
    rw [List.map_cons,List.nodup_cons] at hn
    cases k with
    | zero =>
      obtain rfl : w=r := by simpa using hk
      have hne : l.filter (fun v => Row.key v != Row.key w)=l := by
        rw [List.filter_eq_self]
        intro v hv
        rw [bne_iff_ne]
        intro he
        exact hn.1 (he ▸ List.mem_map_of_mem hv)
      simp [hne]
    | succ k =>
      rw [List.getElem?_cons_succ] at hk
      have hmem := List.mem_of_getElem? hk
      have hne : Row.key w≠Row.key r := fun he => hn.1 (he ▸ List.mem_map_of_mem hmem)
      rw [List.filter_cons_of_pos (by simpa using hne),List.eraseIdx_cons_succ,ih hn.2 hk]

omit [Listed ρ] in
include hm hr in
theorem length_filter_ne : ((t.rows.filter S).filter (fun w => Row.key w != Row.key r)).length+1=
    (t.rows.filter S).length := by
  obtain ⟨k,hk⟩ := List.mem_iff_getElem?.mp (List.mem_filter.mpr ⟨hm,hr⟩)
  have hlt := (List.getElem?_eq_some_iff.mp hk).1
  rw [filter_ne_eq_eraseIdx hk,List.length_eraseIdx_of_lt hlt]
  omega

include hm hr hf in
/-- The other rows of a full list are at other positions. -/
theorem pos_ne_of_filled {x : Int} (hx : pos r=some x) {w : ρ}
    (hw : w ∈ (t.rows.filter S).filter (fun w => Row.key w != Row.key r)) :
    ∃ p,pos w=some p ∧ 1≤p ∧ p≤((t.rows.filter S).length : Int) ∧ p≠x := by
  obtain ⟨hw,hk⟩ := List.mem_filter.mp hw
  obtain ⟨p,hp,h1,hn⟩ := hf.2 w hw
  refine ⟨p,hp,h1,hn,?_⟩
  rintro rfl
  have he := List.inj_on_of_nodup_map hf.1 hw (List.mem_filter.mpr ⟨hm,hr⟩) (hp.trans hx.symm)
  rw [he] at hk
  simp at hk

/-- Where a row of the list goes when the one at `x` is destroyed. -/
theorem pos_closeRow {x p : Int} {w : ρ} (hw : S w=true) (hp : pos w=some p) (hx : 1≤x) :
    pos (closeRow S (some x) w)=some (if x<p then p-1 else p) := by
  unfold closeRow
  rw [hp,hw]
  by_cases hlt : x<p
  · have hmax : max 1 (p-1)=p-1 := by omega
    simp [hlt,hmax]
  · simp [hlt,hp]

include hS hm hr in
/-- Destroying a row of a list numbered in order leaves the others numbered in order. -/
theorem numbered_remove (hn : Numbered pos (t.rows.filter S)) :
    Numbered pos ((t.remove S r).rows.filter S) := by
  obtain ⟨k,-,hk,hp⟩ := hn.pos_of_mem (List.mem_filter.mpr ⟨hm,hr⟩)
  rw [filter_remove hS,filter_ne_eq_eraseIdx hk,hp]
  apply hn.eraseIdx
  intro w hw p hwp
  exact pos_closeRow (List.mem_filter.mp hw).2 hwp (by omega)

include hS hm hr hf in
/-- Destroying a row of a full list leaves a full list. -/
theorem filled_remove : Filled pos ((t.remove S r).rows.filter S) := by
  rw [filter_remove hS]
  have hlen := length_filter_ne hm hr
  obtain ⟨x,hx,hx1,hxn⟩ := hf.2 r (List.mem_filter.mpr ⟨hm,hr⟩)
  have hne := fun w => pos_ne_of_filled hm hr hf hx (w := w)
  refine hf.remap List.filter_sublist _ (fun p => if x<p then p-1 else p) ?_ ?_ ?_
  · intro w hw
    obtain ⟨p,hp,h1,-,hpx⟩ := hne w hw
    have hSw : S w=true := (List.mem_filter.mp (List.mem_of_mem_filter hw)).2
    rw [hx,pos_closeRow hSw hp hx1,hp,Option.map_some]
  · intro w hw p hp
    obtain ⟨y,hy,h1,hn,hyx⟩ := hne w hw
    obtain rfl : p=y := Option.some.inj ((Option.mem_def.mp hp).symm.trans hy)
    split_ifs <;> omega
  · intro p q he hp hq
    obtain ⟨w,hw,hwp⟩ := List.mem_map.mp hp
    obtain ⟨v,hv,hvq⟩ := List.mem_map.mp hq
    obtain ⟨y,hy,-,-,hyx⟩ := hne w hw
    obtain ⟨z,hz,-,-,hzx⟩ := hne v hv
    obtain rfl : p=y := Option.some.inj (hwp.symm.trans hy)
    obtain rfl : q=z := Option.some.inj (hvq.symm.trans hz)
    split_ifs at he <;> omega

include hm hr hf in
/-- A save gives the row its new position; the others shift, unless nobody is in the way. -/
theorem pos_moveRow {q x p : Int} (hq : q≤((t.rows.filter S).length : Int)) (hx : pos r=some x)
    {w : ρ} (hw : w ∈ t.rows.filter S) (hp : pos w=some p) :
    pos (moveRow S r (some q) (t.bottom S) (t.taken S r (some q)) w)=
      some (moved x (max 1 q) p) := by
  obtain ⟨hwt,hwS⟩ := List.mem_filter.mp hw
  obtain ⟨x',hx',hx1,hxn⟩ := hf.2 r (List.mem_filter.mpr ⟨hm,hr⟩)
  obtain rfl : x=x' := Option.some.inj (hx.symm.trans hx')
  obtain ⟨p',hp',h1,hn⟩ := hf.2 w hw
  obtain rfl : p=p' := Option.some.inj (hp.symm.trans hp')
  have hnew : 1 ≤ max 1 q ∧ max 1 q≤((t.rows.filter S).length : Int) := by omega
  -- the new position is held by `r` itself or by a row that gives way
  have htaken : x≠max 1 q → t.taken S r (some q)=true := by
    intro hne
    obtain ⟨y,hy,hyp⟩ := hf.exists_pos hnew.1 hnew.2
    obtain ⟨hyt,hyS⟩ := List.mem_filter.mp hy
    have hk : Row.key y≠Row.key r := by
      intro hk
      rw [t.key_injective hyt hm hk,hx] at hyp
      exact hne (Option.some.inj hyp)
    refine List.any_eq_true.mpr ⟨y,hyt,?_⟩
    simp [hyS,hk,hyp]
  unfold moveRow
  by_cases hk : Row.key w=Row.key r
  · obtain rfl := t.key_injective hwt hm hk
    obtain rfl : x=p := Option.some.inj (hx.symm.trans hp)
    rw [if_pos rfl]
    simp [moved]
  · have hpx : p≠x := by
      rintro rfl
      have he := List.inj_on_of_nodup_map hf.1 hw (List.mem_filter.mpr ⟨hm,hr⟩) (hp.trans hx.symm)
      exact hk (congrArg Row.key he)
    have hsh : moved x (max 1 q) p=shifted x (max 1 q) p := by rw [moved,if_neg hpx]
    have hb := (moved_bounds ⟨hx1,hxn⟩ hnew ⟨h1,hn⟩).1
    rw [if_neg hk,hwS,hx,hp,Option.map_some,hsh]
    rw [hsh] at hb
    cases htk : t.taken S r (some q) with
    | true =>
      have hmax : max 1 (shifted x (max 1 q) p)=shifted x (max 1 q) p := by omega
      simp [hmax]
    | false =>
      have hne : x=max 1 q := by
        by_contra hne
        rw [htaken hne] at htk
        cases htk
      rw [← hsh,← hne,moved_self]
      simpa using hp

include hS hm hr hf in
/-- Moving a row of a full list to a position not past its end leaves a full list. -/
theorem filled_moveTo {q : Int} (hq : q≤((t.rows.filter S).length : Int)) :
    Filled pos ((t.moveTo S r (some q)).rows.filter S) := by
  rw [filter_moveTo hS]
  obtain ⟨x,hx,hx1,hxn⟩ := hf.2 r (List.mem_filter.mpr ⟨hm,hr⟩)
  have hnew : 1 ≤ max 1 q ∧ max 1 q≤((t.rows.filter S).length : Int) := by omega
  refine hf.remap (List.Sublist.refl _) _ (moved x (max 1 q)) ?_ ?_ ?_
  · intro w hw
    obtain ⟨p,hp,-,-⟩ := hf.2 w hw
    rw [pos_moveRow hm hr hf hq hx hw hp,hp,Option.map_some]
  · intro w hw p hp
    obtain ⟨y,hy,h1,hn⟩ := hf.2 w hw
    obtain rfl : p=y := Option.some.inj ((Option.mem_def.mp hp).symm.trans hy)
    exact moved_bounds ⟨hx1,hxn⟩ hnew ⟨h1,hn⟩
  · exact fun p y he _ _ => moved_injective he

include hS hm hr hf in
/-- The other rows keep their order. -/
theorem keys_orderBy_moveTo {q : Int} (hq : q≤((t.rows.filter S).length : Int)) :
    ((orderBy pos ((t.moveTo S r (some q)).rows.filter S)).filter
        (fun w => Row.key w != Row.key r)).map Row.key=
      ((orderBy pos (t.rows.filter S)).filter (fun w => Row.key w != Row.key r)).map Row.key := by
  obtain ⟨x,hx,-,-⟩ := hf.2 r (List.mem_filter.mpr ⟨hm,hr⟩)
  have hk := key_moveRow S r (some q) (t.bottom S) (t.taken S r (some q))
  rw [filter_moveTo hS,← orderBy_filter,← orderBy_filter,List.filter_map]
  have hkr : (fun w => Row.key w != Row.key r) ∘
      moveRow S r (some q) (t.bottom S) (t.taken S r (some q))=
        fun w => Row.key w != Row.key r := by
    funext w
    rw [Function.comp_apply,hk]
  rw [hkr]
  have hne := fun w => pos_ne_of_filled hm hr hf hx (w := w)
  refine keys_orderBy_remap hk (f := moved x (max 1 q)) ?_ ?_
  · intro w hw
    obtain ⟨p,hp,-⟩ := hne w hw
    exact ⟨p,hp,pos_moveRow hm hr hf hq hx (List.mem_of_mem_filter hw) hp⟩
  · intro p p' hp hp'
    obtain ⟨w,hw,hwp⟩ := List.mem_map.mp hp
    obtain ⟨w',hw',hwp'⟩ := List.mem_map.mp hp'
    obtain ⟨y,hy,-,-,hyx⟩ := hne w hw
    obtain ⟨y',hy',-,-,hyx'⟩ := hne w' hw'
    obtain rfl : p=y := Option.some.inj (hwp.symm.trans hy)
    obtain rfl : p'=y' := Option.some.inj (hwp'.symm.trans hy')
    exact moved_le_iff hyx hyx'

/-- The rows of the list past position `c`, by position. -/
def after (S : ρ → Bool) (c : Int) (t : Table ρ) : List ρ :=
  orderBy pos ((t.rows.filter S).filter (fun w => decide (∃ p ∈ pos w,c<p)))

include hS hm hr hf in
/-- Destroying a row past `c` takes that row out of what lies past `c`, and nothing else. -/
theorem after_remove {c x : Int} (hx : pos r=some x) (hc : c<x) :
    ((t.remove S r).after S c).map Row.key=
      ((t.after S c).map Row.key).filter (fun i => i != Row.key r) := by
  have hne := fun w => pos_ne_of_filled hm hr hf hx (w := w)
  have hx1 : 1≤x := Listed.one_le r x hx
  have hclose : ∀ w ∈ (t.rows.filter S).filter (fun w => Row.key w != Row.key r),
      ∃ p,pos w=some p ∧ p≠x ∧ pos (closeRow S (some x) w)=some (if x<p then p-1 else p) := by
    intro w hw
    obtain ⟨p,hp,-,-,hpx⟩ := hne w hw
    have hSw : S w=true := (List.mem_filter.mp (List.mem_of_mem_filter hw)).2
    exact ⟨p,hp,hpx,pos_closeRow hSw hp hx1⟩
  unfold after
  rw [filter_remove hS,hx,List.filter_map]
  -- a row that stays lies past `c` exactly if it did before
  have hpast : ((t.rows.filter S).filter (fun w => Row.key w != Row.key r)).filter
        ((fun w => decide (∃ p ∈ pos w,c<p)) ∘ closeRow S (some x))=
      ((t.rows.filter S).filter (fun w => Row.key w != Row.key r)).filter
        (fun w => decide (∃ p ∈ pos w,c<p)) := by
    apply List.filter_congr
    intro w hw
    obtain ⟨p,hp,hpx,hcl⟩ := hclose w hw
    simp only [Function.comp_apply,hp,hcl,Option.mem_def,Option.some.injEq,exists_eq_left',
      decide_eq_decide]
    split_ifs <;> omega
  rw [hpast,keys_orderBy_remap (key_closeRow S (some x)) (f := fun p => if x<p then p-1 else p)]
  · rw [List.filter_map,List.filter_comm,orderBy_filter]
    rfl
  · intro w hw
    obtain ⟨p,hp,-,hcl⟩ := hclose w (List.mem_of_mem_filter hw)
    exact ⟨p,hp,hcl⟩
  · intro p q hp hq
    obtain ⟨w,hw,hwp⟩ := List.mem_map.mp hp
    obtain ⟨v,hv,hvq⟩ := List.mem_map.mp hq
    obtain ⟨y,hy,hyx,-⟩ := hclose w (List.mem_of_mem_filter hw)
    obtain ⟨z,hz,hzx,-⟩ := hclose v (List.mem_of_mem_filter hv)
    obtain rfl : p=y := Option.some.inj (hwp.symm.trans hy)
    obtain rfl : q=z := Option.some.inj (hvq.symm.trans hz)
    split_ifs <;> omega

include hf in
theorem after_eq_nil {c : Int} (hc : ((t.rows.filter S).length : Int)≤c) : t.after S c=[] := by
  have hnil : (t.rows.filter S).filter (fun w => decide (∃ p ∈ pos w,c<p))=[] := by
    rw [List.filter_eq_nil_iff]
    intro w hw
    obtain ⟨p,hp,-,hn⟩ := hf.2 w hw
    simp only [hp,Option.mem_def,Option.some.injEq,exists_eq_left',decide_eq_true_eq]
    omega
  unfold after
  rw [hnil]
  rfl

include hS hm hf in
/-- Destroying a row at or before `c` pulls the row right after `c` back to `c`. -/
theorem after_remove_ne {c x : Int} (hx : pos r=some x) (hc : x≤c)
    (hn : c<((t.rows.filter S).length : Int)) :
    ((t.remove S r).after S c).map Row.key≠
      ((t.after S c).map Row.key).filter (fun i => i != Row.key r) := by
  have hx1 : 1≤x := Listed.one_le r x hx
  obtain ⟨w,hw,hwp⟩ := hf.exists_pos (k := c+1) (by omega) (by omega)
  obtain ⟨hwt,hwS⟩ := List.mem_filter.mp hw
  have hk : Row.key w≠Row.key r := by
    intro hk
    rw [t.key_injective hwt hm hk,hx] at hwp
    have := Option.some.inj hwp
    omega
  intro he
  have hbefore : Row.key w ∈ ((t.after S c).map Row.key).filter (fun i => i != Row.key r) := by
    refine List.mem_filter.mpr ⟨List.mem_map_of_mem ?_,by simpa using hk⟩
    have hpast : ∃ p ∈ pos w,c<p := ⟨c+1,hwp,by omega⟩
    unfold after
    rw [mem_orderBy]
    exact List.mem_filter.mpr ⟨hw,decide_eq_true hpast⟩
  rw [← he] at hbefore
  obtain ⟨v,hv,hvk⟩ := List.mem_map.mp hbefore
  unfold after at hv
  rw [mem_orderBy,filter_remove hS,hx] at hv
  obtain ⟨hvm,hvc⟩ := List.mem_filter.mp hv
  obtain ⟨p,hp,hcp⟩ := of_decide_eq_true hvc
  obtain ⟨y,hy,rfl⟩ := List.mem_map.mp hvm
  have hyt := (List.mem_filter.mp (List.mem_of_mem_filter hy)).1
  rw [key_closeRow] at hvk
  obtain rfl := t.key_injective hyt hwt hvk
  rw [pos_closeRow hwS hwp hx1,if_pos (by omega)] at hp
  have := Option.some.inj hp
  omega

end filled

end Table

end Sisfila
