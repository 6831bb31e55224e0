import Mathlib.Data.List.Perm.Basic
import Sisfila.Framework.Listed

namespace Sisfila

/-- Writing a position changes nothing else. -/
class LawfulListed (ρ : Type) [Row ρ] [Listed ρ] : Prop where
  put_pos : ∀ r : ρ,Listed.put (Listed.pos r) r=r
  put_put : ∀ (p q : Option Int) (r : ρ),Listed.put p (Listed.put q r)=Listed.put p r

/-- Reading a position off a written row and writing it again. -/
theorem LawfulListed.put_pos_put {ρ : Type} [Row ρ] [Listed ρ] [LawfulListed ρ] (p : Option Int)
    (r : ρ) : Listed.put (Listed.pos (Listed.put p r)) r=Listed.put p r := by
  rw [← put_put _ p r,put_pos]

namespace Table

open Listed LawfulListed

variable {ρ : Type} [Row ρ] [Listed ρ] {S : ρ → Bool}

/-- The rows of list `S` with the positions `g` gives to their keys. -/
def renumber (S : ρ → Bool) (g : Nat → Option Int) (t : Table ρ) : Table ρ :=
  t.map (fun w => if S w then put (g (Row.key w)) w else w) (by intro w; split_ifs <;> simp)

theorem rows_renumber (S : ρ → Bool) (g : Nat → Option Int) (t : Table ρ) :
    (t.renumber S g).rows=t.rows.map (fun w => if S w then put (g (Row.key w)) w else w) := rfl

/-- The rows named by the keys go to the positions from `i` on, one after another. -/
def arrange (S : ρ → Bool) : List Nat → Int → Table ρ → Table ρ
  | [],_,t => t
  | k::ks,i,t =>
    arrange S ks (i+1) (match t.find k with
      | some r => t.moveTo S r (some i)
      | none => t)

variable [LawfulListed ρ] (hS : ∀ p w,S (put p w)=S w)

include hS in
theorem renumber_renumber (g h : Nat → Option Int) (t : Table ρ) :
    (t.renumber S g).renumber S h=t.renumber S h := by
  refine rows_injective ?_ rfl
  rw [rows_renumber,rows_renumber,rows_renumber,List.map_map]
  refine List.map_congr_left (fun w _ => ?_)
  by_cases hw : S w=true
  · simp [hw,hS,put_put]
  · simp [hw]

omit [LawfulListed ρ] in
include hS in
theorem filter_renumber (g : Nat → Option Int) (t : Table ρ) :
    (t.renumber S g).rows.filter S=(t.rows.filter S).map (fun w => put (g (Row.key w)) w) := by
  rw [rows_renumber,List.filter_map]
  have hsame : S ∘ (fun w => if S w then put (g (Row.key w)) w else w)=S := by
    funext w
    by_cases hw : S w=true
    · simp [hw,hS]
    · simp [hw]
  rw [hsame]
  refine List.map_congr_left (fun w hw => ?_)
  exact if_pos (List.mem_filter.mp hw).2

theorem renumber_eq_self {g : Nat → Option Int} {t : Table ρ}
    (h : ∀ w ∈ t.rows,S w=true → g (Row.key w)=pos w) : t.renumber S g=t := by
  refine t.map_eq_self _ (fun w hw => ?_)
  split_ifs with hs
  · rw [h w hw hs,put_pos]
  · rfl

section filled

variable {t : Table ρ} {r : ρ} (hm : r ∈ t.rows) (hr : S r=true)
  (hf : Filled pos (t.rows.filter S))

include hm hr hf

/-- On a full list a move only writes positions. -/
theorem moveTo_eq_renumber {q : Int} (hq : q≤((t.rows.filter S).length : Int)) :
    ∃ g,t.moveTo S r (some q)=t.renumber S g := by
  obtain ⟨x,hx,-,-⟩ := hf.2 r (List.mem_filter.mpr ⟨hm,hr⟩)
  refine ⟨fun k => ((t.find k).bind pos).map (moved x (max 1 q)),rows_injective ?_ rfl⟩
  rw [moveTo,map_rows,rows_renumber]
  refine List.map_congr_left (fun w hw => ?_)
  by_cases hs : S w=true
  · obtain ⟨p,hp,-,-⟩ := hf.2 w (List.mem_filter.mpr ⟨hw,hs⟩)
    have hpos := pos_moveRow hm hr hf hq hx (List.mem_filter.mpr ⟨hw,hs⟩) hp
    have hput : moveRow S r (some q) (t.bottom S) (t.taken S r (some q)) w=
        put (pos (moveRow S r (some q) (t.bottom S) (t.taken S r (some q)) w)) w := by
      unfold moveRow
      split_ifs
      · exact (put_pos_put _ w).symm
      · exact (put_pos_put _ w).symm
      · exact (put_pos w).symm
    rw [if_pos hs,find_of_mem hw,Option.bind_some,hp,Option.map_some,← hpos]
    exact hput
  · have hk : Row.key w≠Row.key r := by
      intro hk
      rw [t.key_injective hw hm hk] at hs
      exact hs hr
    simp [moveRow,hk,hs]

end filled

omit [LawfulListed ρ] in
include hS in
/-- Positions before the goal of a move, and the row that moves there. -/
theorem pos_moveTo_before {t : Table ρ} {r : ρ} (hm : r ∈ t.rows) (hr : S r=true)
    (hf : Filled pos (t.rows.filter S)) {x i : Int} (hx : pos r=some x) (hi : 1≤ i) (hxi : i≤x)
    {w : ρ} (hw : w ∈ (t.moveTo S r (some i)).rows) (hs : S w=true) :
    (Row.key w=Row.key r → pos w=some i) ∧
      ∀ v ∈ t.rows,Row.key v=Row.key w → ∀ p < i,pos v=some p → pos w=some p := by
  obtain ⟨y,hy,-,hyn⟩ := hf.2 r (List.mem_filter.mpr ⟨hm,hr⟩)
  obtain rfl : x=y := Option.some.inj (hx.symm.trans hy)
  obtain ⟨u,hu,rfl⟩ := List.mem_map.mp hw
  have hku := key_moveRow S r (some i) (t.bottom S) (t.taken S r (some i)) u
  have hsu : S u=true := by rwa [moveRow_of_put hS] at hs
  obtain ⟨p,hp,-,-⟩ := hf.2 u (List.mem_filter.mpr ⟨hu,hsu⟩)
  have hpos := pos_moveRow hm hr hf (q := i) (by omega) hx (List.mem_filter.mpr ⟨hu,hsu⟩) hp
  constructor
  · intro hk
    obtain rfl := t.key_injective hu hm (hku.symm.trans hk)
    obtain rfl : x=p := Option.some.inj (hx.symm.trans hp)
    have hmax : max 1 i=i := by omega
    rw [hpos,moved,if_pos rfl,hmax]
  · intro v hv hk q hq hvq
    obtain rfl := t.key_injective hv hu (hk.trans hku)
    obtain rfl : p=q := Option.some.inj (hp.symm.trans hvq)
    have hmoved : moved x (max 1 i) p=p := by
      unfold moved shifted
      split_ifs <;> omega
    rw [hpos,hmoved]

omit [Listed ρ] [LawfulListed ρ] in
theorem nodup_keys (S : ρ → Bool) (t : Table ρ) : ((t.rows.filter S).map Row.key).Nodup :=
  (t.nodup_rows.filter S).map_on (fun _ ha _ hb h =>
    t.key_injective (List.mem_filter.mp ha).1 (List.mem_filter.mp hb).1 h)

/-- The rows of list `S` that the keys name stand in the order of the keys, from 1 on. -/
def Placed (S : ρ → Bool) (ks : List Nat) (t : Table ρ) : Prop :=
  ∀ w ∈ t.rows,S w=true → Row.key w ∈ ks → pos w=some ((ks.idxOf (Row.key w) : Int)+1)

omit [LawfulListed ρ] in
/-- With the first places taken, any other row stands behind them. -/
theorem length_lt_pos {rest done : List Nat} {t : Table ρ} (hf : Filled pos (t.rows.filter S))
    (hp : (done++rest).Perm ((t.rows.filter S).map Row.key)) (hd : t.Placed S done)
    {r : ρ} (hm : r ∈ t.rows) (hr : S r=true) (hk : Row.key r ∉ done) {x : Int}
    (hx : pos r=some x) : (done.length : Int)+1≤x := by
  by_contra hlt
  have hx1 := one_le r x hx
  obtain ⟨j,hj⟩ : ∃ j : Nat,x=(j : Int)+1 := ⟨(x-1).toNat,by omega⟩
  have hjd : j<done.length := by omega
  have hnd : done.Nodup := (List.nodup_append.mp (hp.nodup_iff.mpr (nodup_keys S t))).1
  have hmem : done[j] ∈ (t.rows.filter S).map Row.key :=
    hp.mem_iff.mp (List.mem_append_left _ (List.getElem_mem hjd))
  obtain ⟨w,hw,hwk⟩ := List.mem_map.mp hmem
  obtain ⟨hwt,hws⟩ := List.mem_filter.mp hw
  have hwd : Row.key w ∈ done := hwk ▸ List.getElem_mem hjd
  have hpw := hd w hwt hws hwd
  rw [hwk,hnd.idxOf_getElem j hjd,← hj,← hx] at hpw
  have he := List.inj_on_of_nodup_map hf.1 hw (List.mem_filter.mpr ⟨hm,hr⟩) hpw
  exact hk (he ▸ hwd)

omit [LawfulListed ρ] in
include hS in
theorem keys_filter_moveTo (r : ρ) (q : Option Int) (t : Table ρ) :
    ((t.moveTo S r q).rows.filter S).map Row.key=(t.rows.filter S).map Row.key := by
  rw [filter_moveTo hS,List.map_map]
  exact List.map_congr_left (fun w _ => key_moveRow S r _ _ _ w)

omit [LawfulListed ρ] in
include hS in
/-- One move puts one more row in its place and leaves those before it. -/
theorem Placed.moveTo {done : List Nat} {t : Table ρ} (hd : t.Placed S done) {r : ρ}
    (hm : r ∈ t.rows) (hr : S r=true) (hf : Filled pos (t.rows.filter S)) {x : Int}
    (hx : pos r=some x) (hxi : (done.length : Int)+1≤x) (hk : Row.key r ∉ done) :
    (t.moveTo S r (some ((done.length : Int)+1))).Placed S (done++[Row.key r]) := by
  intro w hw hs hmem
  obtain ⟨hself,hbefore⟩ := pos_moveTo_before hS hm hr hf hx (by omega) hxi hw hs
  by_cases hwd : Row.key w ∈ done
  · obtain ⟨v,hv,hvw⟩ := List.mem_map.mp hw
    have hkv : Row.key v=Row.key w := by rw [← hvw,key_moveRow]
    have hsv : S v=true := by rwa [← hvw,moveRow_of_put hS] at hs
    have hpv := hd v hv hsv (hkv ▸ hwd)
    rw [hkv] at hpv
    have hidx := List.idxOf_lt_length_of_mem hwd
    rw [List.idxOf_append_of_mem hwd]
    exact hbefore v hv hkv _ (by omega) hpv
  · have hkw : Row.key w=Row.key r := by simpa [hwd] using hmem
    rw [hkw,List.idxOf_append_of_notMem hk,hself hkw]
    simp

include hS in
/-- The moves bring the list into the order of the keys: once the rows of `done` are in their
places, no later move disturbs them. -/
theorem arrange_eq {rest done : List Nat} {t : Table ρ} (hf : Filled pos (t.rows.filter S))
    (hp : (done++rest).Perm ((t.rows.filter S).map Row.key)) (hd : t.Placed S done) :
    t.arrange S rest ((done.length : Int)+1)=
      t.renumber S (fun k => some (((done++rest).idxOf k : Int)+1)) := by
  induction rest generalizing done t with
  | nil =>
    rw [List.append_nil] at hp ⊢
    refine (renumber_eq_self (fun w hw hs => ?_)).symm
    have hmem : Row.key w ∈ done :=
      hp.mem_iff.mpr (List.mem_map.mpr ⟨w,List.mem_filter.mpr ⟨hw,hs⟩,rfl⟩)
    exact (hd w hw hs hmem).symm
  | cons k rest ih =>
    obtain ⟨r,hrf,rfl⟩ := List.mem_map.mp
      (hp.mem_iff.mp (List.mem_append_right done (List.mem_cons_self (a := k))))
    obtain ⟨hm,hr⟩ := List.mem_filter.mp hrf
    have hnd := hp.nodup_iff.mpr (nodup_keys S t)
    have hkd : Row.key r ∉ done := fun h =>
      List.disjoint_of_nodup_append hnd h List.mem_cons_self
    obtain ⟨x,hx,-,hxn⟩ := hf.2 r hrf
    have hxi := length_lt_pos hf hp hd hm hr hkd hx
    have hq : (done.length : Int)+1≤((t.rows.filter S).length : Int) := by omega
    have happ : done++[Row.key r]++rest=done++Row.key r::rest := by simp
    have hlen : ((done++[Row.key r]).length : Int)=(done.length : Int)+1 := by simp
    have hih := ih (filled_moveTo hS hm hr hf hq) (by rw [happ,keys_filter_moveTo hS]; exact hp)
      (hd.moveTo hS hm hr hf hx hxi hkd)
    rw [happ,hlen] at hih
    obtain ⟨g,hg⟩ := moveTo_eq_renumber hm hr hf hq
    rw [arrange,find_of_mem hm]
    refine hih.trans ?_
    rw [hg,renumber_renumber hS]

include hS in
/-- From any order of a full list to that of its keys. -/
theorem arrange_one {ks : List Nat} {t : Table ρ} (hf : Filled pos (t.rows.filter S))
    (hp : ks.Perm ((t.rows.filter S).map Row.key)) :
    t.arrange S ks 1=t.renumber S (fun k => some ((ks.idxOf k : Int)+1)) := by
  have hall : ([]++ks).Perm ((t.rows.filter S).map Row.key) := hp
  exact arrange_eq hS hf hall (fun _ _ _ h => absurd h List.not_mem_nil)

theorem mem_drop_iff_idxOf {ks : List Nat} (hnd : ks.Nodup) (c k : Nat) :
    k ∈ ks.drop c ↔ k ∈ ks ∧ c≤ks.idxOf k := by
  rw [List.mem_drop_iff_getElem]
  constructor
  · rintro ⟨j,hj,rfl⟩
    have hidx := hnd.idxOf_getElem (c+j) (by omega)
    exact ⟨List.getElem_mem _,by omega⟩
  · intro ⟨hk,hle⟩
    have hlt := List.idxOf_lt_length_of_mem hk
    have he : c+(ks.idxOf k-c)=ks.idxOf k := by omega
    exact ⟨ks.idxOf k-c,by omega,by simp [he]⟩

theorem pairwise_idxOf {ks : List Nat} (hnd : ks.Nodup) :
    ks.Pairwise (fun a b => ks.idxOf a<ks.idxOf b) := by
  rw [List.pairwise_iff_getElem]
  intro i j hi hj hij
  rwa [hnd.idxOf_getElem i hi,hnd.idxOf_getElem j hj]

/-- A list in the order of the keys that holds those from the `c`-th on is what `drop` leaves. -/
theorem eq_drop_of_pairwise {ks l : List Nat} (hnd : ks.Nodup)
    (hl : l.Pairwise (fun a b => ks.idxOf a<ks.idxOf b)) {c : Nat}
    (hm : ∀ k,k ∈ l ↔ k ∈ ks ∧ c≤ks.idxOf k) : l=ks.drop c := by
  have hnodup : l.Nodup := hl.imp (fun hab he => by
    rw [he] at hab
    exact lt_irrefl _ hab)
  refine List.Perm.eq_of_pairwise (fun a b _ _ hab hba => absurd hab (lt_asymm hba)) hl
    ((pairwise_idxOf hnd).sublist (List.drop_sublist _ _)) ?_
  refine (List.perm_ext_iff_of_nodup hnodup (hnd.sublist (List.drop_sublist _ _))).mpr ?_
  intro k
  rw [mem_drop_iff_idxOf hnd,hm]

section placed

variable {ks : List Nat} {t : Table ρ} (hp : ks.Perm ((t.rows.filter S).map Row.key))
  (hd : t.Placed S ks)

omit [LawfulListed ρ]
include hp hd

theorem Placed.pos_eq {w : ρ} (hw : w ∈ t.rows.filter S) :
    pos w=some ((ks.idxOf (Row.key w) : Int)+1) :=
  hd w (List.mem_filter.mp hw).1 (List.mem_filter.mp hw).2
    (hp.mem_iff.mpr (List.mem_map_of_mem hw))

theorem Placed.mem_after (c : Int) (w : ρ) :
    w ∈ t.after S c ↔ w ∈ t.rows.filter S ∧ c.toNat≤ks.idxOf (Row.key w) := by
  rw [after,mem_orderBy,List.mem_filter]
  refine and_congr_right (fun hw => ?_)
  simp only [hd.pos_eq hp hw,Option.mem_def,Option.some.injEq,exists_eq_left',decide_eq_true_eq]
  omega

theorem Placed.pairwise_after (c : Int) :
    ((t.after S c).map Row.key).Pairwise (fun a b => ks.idxOf a<ks.idxOf b) := by
  have hnodup := (t.nodup_rows.filter S).filter (fun w => decide (∃ p ∈ pos w,c<p))
  have hstrict := orderBy_strict pos hnodup (by
    intro v hv w hw he
    have hv := List.mem_of_mem_filter hv
    have hw := List.mem_of_mem_filter hw
    rw [hd.pos_eq hp hv,hd.pos_eq hp hw] at he
    have hidx : ks.idxOf (Row.key v)=ks.idxOf (Row.key w) := by
      have := Option.some.inj he
      omega
    have hkv : Row.key v ∈ ks := hp.mem_iff.mpr (List.mem_map_of_mem hv)
    exact t.key_injective (List.mem_filter.mp hv).1 (List.mem_filter.mp hw).1
      ((List.idxOf_inj hkv).mp hidx))
  refine List.pairwise_map.mpr (hstrict.imp_of_mem ?_)
  intro v w hv hw hlt
  rw [hd.pos_eq hp ((hd.mem_after hp c v).mp hv).1,
    hd.pos_eq hp ((hd.mem_after hp c w).mp hw).1] at hlt
  have hnot := not_le_of_gt hlt
  change ¬(ks.idxOf (Row.key w) : Int)+1≤(ks.idxOf (Row.key v) : Int)+1 at hnot
  omega

/-- Past place `c` of a list in the order of the keys lie the keys from the `c`-th on. -/
theorem Placed.keys_after (c : Int) : (t.after S c).map Row.key=ks.drop c.toNat := by
  apply eq_drop_of_pairwise (hp.nodup_iff.mpr (nodup_keys S t)) (hd.pairwise_after hp c)
  intro k
  rw [List.mem_map]
  constructor
  · rintro ⟨w,hw,rfl⟩
    obtain ⟨hw,hle⟩ := (hd.mem_after hp c w).mp hw
    exact ⟨hp.mem_iff.mpr (List.mem_map_of_mem hw),hle⟩
  · intro ⟨hk,hle⟩
    obtain ⟨w,hw,rfl⟩ := List.mem_map.mp (hp.mem_iff.mp hk)
    exact ⟨w,(hd.mem_after hp c w).mpr ⟨hw,hle⟩,rfl⟩

end placed

include hS in
theorem keys_after_arrange {ks : List Nat} {t : Table ρ} (hf : Filled pos (t.rows.filter S))
    (hp : ks.Perm ((t.rows.filter S).map Row.key)) (c : Int) :
    ((t.arrange S ks 1).after S c).map Row.key=ks.drop c.toNat := by
  rw [arrange_one hS hf hp]
  have hrows := filter_renumber hS (fun k => some ((ks.idxOf k : Int)+1)) t
  apply Placed.keys_after
  · rw [hrows,List.map_map]
    simpa only [Function.comp_def,key_put] using hp
  · intro w hw hs _
    have hmem := List.mem_filter.mpr ⟨hw,hs⟩
    rw [hrows] at hmem
    obtain ⟨v,-,rfl⟩ := List.mem_map.mp hmem
    rw [pos_put,key_put,Option.map_some]
    congr 1
    omega

end Table

end Sisfila
