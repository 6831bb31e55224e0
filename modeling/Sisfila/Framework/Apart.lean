import Sisfila.Framework.Listed

namespace Sisfila

/-! Lists that may have gaps, and rows without a place, but no place twice. -/

/-- No two rows share a position. -/
def Apart {ρ : Type} (pos : ρ → Option Int) (l : List ρ) : Prop :=
  ∀ v ∈ l,∀ w ∈ l,∀ p,pos v=some p → pos w=some p → v=w

instance {ρ : Type} [DecidableEq ρ] (pos : ρ → Option Int) (l : List ρ) : Decidable (Apart pos l) :=
  decidable_of_iff (∀ v ∈ l,∀ w ∈ l,(pos v).isSome=true → pos v=pos w → v=w)
    ⟨fun h v hv w hw _ hp hq => h v hv w hw (Option.isSome_of_eq_some hp) (hp.trans hq.symm),
      fun h v hv w hw hs he => by
        obtain ⟨p,hp⟩ := Option.isSome_iff_exists.mp hs
        exact h v hv w hw p hp (he.symm.trans hp)⟩

namespace Apart

variable {ρ : Type} {pos : ρ → Option Int} {l : List ρ}

theorem append (h : Apart pos l) {r : ρ} (hr : ∀ w ∈ l,pos w≠pos r) : Apart pos (l++[r]) := by
  intro v hv w hw p hp hq
  rcases List.mem_append.mp hv with hv | hv <;> rcases List.mem_append.mp hw with hw | hw
  · exact h v hv w hw p hp hq
  · rw [List.mem_singleton.mp hw] at hq
    exact absurd (hp.trans hq.symm) (hr v hv)
  · rw [List.mem_singleton.mp hv] at hp
    exact absurd (hq.trans hp.symm) (hr w hw)
  · rw [List.mem_singleton.mp hv,List.mem_singleton.mp hw]

theorem sublist (h : Apart pos l) {k : List ρ} (hk : k.Sublist l) : Apart pos k :=
  fun v hv w hw => h v (hk.subset hv) w (hk.subset hw)

/-- Rows rewritten one by one stay apart if no two of them end up in one place. -/
theorem map {β : Type} {pos' : β → Option Int} (g : ρ → β)
    (hg : ∀ v ∈ l,∀ w ∈ l,∀ p,pos' (g v)=some p → pos' (g w)=some p → v=w) :
    Apart pos' (l.map g) := by
  intro v hv w hw p hp hq
  obtain ⟨a,ha,rfl⟩ := List.mem_map.mp hv
  obtain ⟨b,hb,rfl⟩ := List.mem_map.mp hw
  rw [hg a ha b hb p hp hq]

theorem map_of_pos (h : Apart pos l) {β : Type} {pos' : β → Option Int} (g : ρ → β)
    (hg : ∀ w,pos' (g w)=pos w) : Apart pos' (l.map g) :=
  map g (fun v hv w hw p hp hq => h v hv w hw p (hg v ▸ hp) (hg w ▸ hq))

end Apart

namespace Table

open Listed

variable {ρ : Type} [Row ρ] [Listed ρ] {S : ρ → Bool} {t : Table ρ} {r : ρ}

/-- Columns that a projection forgets do not matter. -/
theorem apart_map_iff {ρ' : Type} [Row ρ'] [Listed ρ'] {S' : ρ' → Bool} {f : ρ → ρ'}
    (hk : ∀ r,Row.key (f r)=Row.key r) (hp : ∀ r,pos (f r)=pos r) (hS : ∀ r,S' (f r)=S r) :
    Apart pos ((t.map f hk).rows.filter S') ↔ Apart pos (t.rows.filter S) := by
  have hS' : S' ∘ f=S := funext hS
  rw [map_rows,List.filter_map,hS']
  refine ⟨fun h v hv w hw p hv' hw' => ?_,fun h => h.map_of_pos f hp⟩
  have he := h _ (List.mem_map_of_mem hv) _ (List.mem_map_of_mem hw) p ((hp v).trans hv')
    ((hp w).trans hw')
  refine t.key_injective (List.mem_filter.mp hv).1 (List.mem_filter.mp hw).1 ?_
  rw [← hk v,he,hk]

/-- An UPDATE of other columns. -/
theorem apart_modify (h : Apart pos (t.rows.filter S)) (i : Nat) (g : ρ → ρ)
    (hk : ∀ r,Row.key (g r)=Row.key r) (hS : ∀ w,S (g w)=S w) (hg : ∀ w,pos (g w)=pos w) :
    Apart pos ((t.modify i g hk).rows.filter S) := by
  rw [t.filter_modify i g hk hS]
  refine h.map_of_pos _ (fun w => ?_)
  split_ifs
  · exact hg w
  · rfl

variable (hm : r ∈ t.rows) (hr : S r=true) (h : Apart pos (t.rows.filter S))

include hm hr h in
/-- Nobody else is where the row that moves comes from. -/
theorem pos_ne_old {w : ρ} (hw : w ∈ t.rows.filter S) (hk : Row.key w≠Row.key r) {x : Int}
    (hx : pos w=some x) : x≠(pos r).getD (t.bottom S+1) := by
  rintro rfl
  cases hp : pos r with
  | none =>
    have hle := le_bottom hw hx
    rw [hp,Option.getD_none] at hle
    omega
  | some y =>
    rw [hp,Option.getD_some] at hx
    exact hk (congrArg Row.key (h w hw r (List.mem_filter.mpr ⟨hm,hr⟩) y hx hp))

/-- Where a save of another row of the list leaves a row. -/
theorem pos_moveRow_ne {q : Option Int} {w : ρ} (hw : w ∈ t.rows.filter S)
    (hk : Row.key w≠Row.key r) {p : Int}
    (hp : pos (moveRow S r q (t.bottom S) (t.taken S r q) w)=some p) : ∃ x,pos w=some x ∧
      p=if t.taken S r q
        then shifted ((pos r).getD (t.bottom S+1)) (max 1 (q.getD 0)) x else x := by
  unfold moveRow at hp
  rw [if_neg hk,(List.mem_filter.mp hw).2,Bool.true_and] at hp
  cases htk : t.taken S r q with
  | false =>
    rw [htk] at hp
    exact ⟨p,hp,rfl⟩
  | true =>
    rw [htk,if_pos rfl,pos_put] at hp
    cases hx : pos w with
    | none =>
      rw [hx] at hp
      cases hp
    | some x =>
      rw [hx,Option.map_some,Option.map_some] at hp
      refine ⟨x,rfl,?_⟩
      have h1 := one_le w x hx
      have hold : 1≤(pos r).getD (t.bottom S+1) := by
        cases hpr : pos r with
        | none =>
          rw [Option.getD_none]
          omega
        | some y => exact one_le r y hpr
      rw [← Option.some.inj hp,if_pos rfl]
      unfold shifted
      split_ifs <;> omega

include hm hr h in
/-- A save leaves the others in their order. -/
theorem le_of_moveRow_le {q : Option Int} {v w : ρ} (hv : v ∈ t.rows.filter S)
    (hw : w ∈ t.rows.filter S) (hkv : Row.key v≠Row.key r) (hkw : Row.key w≠Row.key r) {x y : Int}
    (hx : pos (moveRow S r q (t.bottom S) (t.taken S r q) v)=some x)
    (hy : pos (moveRow S r q (t.bottom S) (t.taken S r q) w)=some y) (hxy : x≤y) :
    ∃ a ∈ pos v,∃ b ∈ pos w,a≤b := by
  obtain ⟨a,ha,hxa⟩ := pos_moveRow_ne hv hkv hx
  obtain ⟨b,hb,hyb⟩ := pos_moveRow_ne hw hkw hy
  refine ⟨a,ha,b,hb,?_⟩
  have hao := pos_ne_old hm hr h hv hkv ha
  have hbo := pos_ne_old hm hr h hw hkw hb
  split_ifs at hxa hyb with htk
  · have hle : moved ((pos r).getD (t.bottom S+1)) (max 1 (q.getD 0)) a≤
        moved ((pos r).getD (t.bottom S+1)) (max 1 (q.getD 0)) b := by
      rw [moved,moved,if_neg hao,if_neg hbo,← hxa,← hyb]
      exact hxy
    exact (moved_le_iff hao hbo).mp hle
  · rwa [← hxa,← hyb]

include hm hr h in
/-- Nobody else is where the saved row goes. -/
theorem pos_moveRow_self_ne {q : Option Int} {w : ρ} (hw : w ∈ t.rows.filter S)
    (hk : Row.key w≠Row.key r) {p : Int}
    (hp : pos (moveRow S r q (t.bottom S) (t.taken S r q) r)=some p) :
    pos (moveRow S r q (t.bottom S) (t.taken S r q) w)≠some p := by
  intro hpw
  obtain ⟨z,rfl,rfl⟩ : ∃ z,q=some z ∧ max 1 z=p := by
    unfold moveRow at hp
    rw [if_pos rfl,pos_put] at hp
    exact Option.map_eq_some_iff.mp hp
  obtain ⟨x,hx,he⟩ := pos_moveRow_ne hw hk hpw
  have hne := pos_ne_old hm hr h hw hk hx
  cases htk : t.taken S r (some z) with
  | true =>
    rw [htk,if_pos rfl,Option.getD_some] at he
    unfold shifted at he
    split_ifs at he <;> omega
  | false =>
    rw [htk] at he
    have hany := List.any_eq_false.mp htk w (List.mem_filter.mp hw).1
    exact hany (by simp [(List.mem_filter.mp hw).2,hk,hx,he])

include hm hr h in
/-- Where a destroyed row leaves another one. -/
theorem pos_closeRow_ne {w : ρ} (hw : w ∈ t.rows.filter S) (hk : Row.key w≠Row.key r) {p : Int}
    (hp : pos (closeRow S (pos r) w)=some p) :
    ∃ y,pos w=some y ∧ ∀ x ∈ pos r,y≠x ∧ p=if x<y then y-1 else y := by
  cases hy : pos w with
  | none => simp [closeRow,hy] at hp
  | some y =>
    refine ⟨y,rfl,fun x hx => ⟨?_,?_⟩⟩
    · rintro rfl
      exact hk (congrArg Row.key (h w hw r (List.mem_filter.mpr ⟨hm,hr⟩) y hy hx))
    · rw [Option.mem_def.mp hx,pos_closeRow (List.mem_filter.mp hw).2 hy (one_le r x hx)] at hp
      exact (Option.some.inj hp).symm

include hm hr h in
theorem le_of_closeRow_le {v w : ρ} (hv : v ∈ t.rows.filter S) (hw : w ∈ t.rows.filter S)
    (hkv : Row.key v≠Row.key r) (hkw : Row.key w≠Row.key r) {x y : Int}
    (hx : pos (closeRow S (pos r) v)=some x) (hy : pos (closeRow S (pos r) w)=some y)
    (hxy : x≤y) : ∃ a ∈ pos v,∃ b ∈ pos w,a≤b := by
  obtain ⟨a,ha,hxa⟩ := pos_closeRow_ne hm hr h hv hkv hx
  obtain ⟨b,hb,hyb⟩ := pos_closeRow_ne hm hr h hw hkw hy
  refine ⟨a,ha,b,hb,?_⟩
  cases hp : pos r with
  | none =>
    have hid : ∀ u : ρ,closeRow S none u=u := fun u => by simp [closeRow]
    rw [hp,hid] at hx hy
    rw [hx] at ha
    rw [hy] at hb
    rwa [← Option.some.inj ha,← Option.some.inj hb]
  | some z =>
    obtain ⟨haz,hxa⟩ := hxa z hp
    obtain ⟨hbz,hyb⟩ := hyb z hp
    split_ifs at hxa hyb <;> omega

end Table

/-! What a program may rely on when the list operations are somebody else's. -/

/-- What a callback about `r` may do to rows: give places to rows of list `S` and change nothing
else, with the others left in their order. -/
structure Shuffles {ρ : Type} [Row ρ] [Listed ρ] (S : ρ → Bool) (r : ρ) (l : List ρ)
    (g : ρ → ρ) : Prop where
  places : ∀ w ∈ l,g w=w ∨ S w=true ∧ ∃ p,g w=Listed.put p w
  order : ∀ v ∈ l.filter S,∀ w ∈ l.filter S,Row.key v≠Row.key r → Row.key w≠Row.key r →
    ∀ x ∈ Listed.pos (g v),∀ y ∈ Listed.pos (g w),x≤y →
      ∃ a ∈ Listed.pos v,∃ b ∈ Listed.pos w,a≤b

namespace Shuffles

open Listed

variable {ρ : Type} [Row ρ] [Listed ρ] {S T : ρ → Bool} {r : ρ} {l : List ρ} {g : ρ → ρ}

theorem filter_map (h : Shuffles S r l g) (hT : ∀ p w,T (put p w)=T w) :
    (l.map g).filter T=(l.filter T).map g := by
  rw [List.filter_map]
  congr 1
  refine List.filter_congr (fun w hw => ?_)
  rcases h.places w hw with he | ⟨-,p,he⟩
  · rw [Function.comp_apply,he]
  · rw [Function.comp_apply,he,hT]

/-- Another list does not notice. -/
theorem filter_of_disjoint (h : Shuffles S r l g) (hT : ∀ p w,T (put p w)=T w)
    (hd : ∀ w,S w=true → T w=false) : (l.map g).filter T=l.filter T := by
  rw [h.filter_map hT]
  refine (List.map_congr_left (fun w hw => ?_)).trans (List.map_id _)
  obtain ⟨hw,ht⟩ := List.mem_filter.mp hw
  rcases h.places w hw with he | ⟨hs,-⟩
  · exact he
  · rw [hd w hs] at ht
    cases ht

/-- Rows in order, none of them where `r` goes: no place is taken twice. -/
theorem apart (h : Shuffles S r l g) (hS : ∀ p w,S (put p w)=S w) (ha : Apart pos (l.filter S))
    (hr : ∀ v ∈ l.filter S,∀ w ∈ l.filter S,Row.key v=Row.key r →
      ∀ p,pos (g v)=some p → pos (g w)=some p → v=w) : Apart pos ((l.map g).filter S) := by
  rw [h.filter_map hS]
  refine Apart.map g (fun v hv w hw p hp hq => ?_)
  by_cases hkv : Row.key v=Row.key r
  · exact hr v hv w hw hkv p hp hq
  by_cases hkw : Row.key w=Row.key r
  · exact (hr w hw v hv hkw p hq hp).symm
  · obtain ⟨a,hav,b,hbw,hab⟩ := h.order v hv w hw hkv hkw p hp p hq le_rfl
    obtain ⟨b',hbw',a',hav',hba⟩ := h.order w hw v hv hkw hkv p hq p hp le_rfl
    obtain rfl : a=a' := Option.some.inj (hav.symm.trans hav')
    obtain rfl : b=b' := Option.some.inj (hbw.symm.trans hbw')
    obtain rfl : a=b := le_antisymm hab hba
    exact ha v hv w hw a hav hbw

end Shuffles

/-- The documented effect of the callbacks on a list without ties: a saved row gets a place of its
own, a destroyed row goes, and the others stay in their order. -/
class LawfulActsAsList (ρ : Type) [Row ρ] [Listed ρ] [ActsAsList ρ] : Prop where
  save : ∀ {S : ρ → Bool} {r : ρ} {t : Table ρ} (q : Option Int),
    (∀ p w,S (Listed.put p w)=S w) → r ∈ t.rows → S r=true →
    Apart Listed.pos (t.rows.filter S) →
    ∃ g,(ActsAsList.save S r q t).rows=t.rows.map g ∧ Shuffles S r t.rows g ∧
      ∀ w ∈ t.rows.filter S,Row.key w≠Row.key r →
        ∀ p ∈ Listed.pos (g r),Listed.pos (g w)≠some p
  destroy : ∀ {S : ρ → Bool} {r : ρ} {t : Table ρ},
    (∀ p w,S (Listed.put p w)=S w) → r ∈ t.rows → S r=true →
    Apart Listed.pos (t.rows.filter S) →
    ∃ g,(ActsAsList.destroy S r t).rows=(t.delete (Row.key r)).rows.map g ∧
      Shuffles S r (t.delete (Row.key r)).rows g

namespace ActsAsList

open Listed

variable {ρ : Type} [Row ρ] [Listed ρ] [ActsAsList ρ] [LawfulActsAsList ρ] {S T : ρ → Bool}
  {t : Table ρ} {r : ρ}

variable (hS : ∀ p w,S (put p w)=S w) (hm : r ∈ t.rows) (hr : S r=true)
  (h : Apart pos (t.rows.filter S))

include hS hm hr h

/-- A save never puts two rows of the list in one place. -/
theorem apart_save (q : Option Int) : Apart pos ((save S r q t).rows.filter S) := by
  obtain ⟨g,hg,hs,hself⟩ := LawfulActsAsList.save q hS hm hr h
  rw [hg]
  refine hs.apart hS h (fun v hv w hw hk p hp hq => ?_)
  obtain rfl := t.key_injective (List.mem_filter.mp hv).1 hm hk
  by_contra hne
  refine hself w hw (fun hkw => hne ?_) p hp hq
  exact (t.key_injective (List.mem_filter.mp hw).1 hm hkw).symm

/-- Nor any of another list. -/
theorem filter_save (q : Option Int) (hT : ∀ p w,T (put p w)=T w)
    (hd : ∀ w,S w=true → T w=false) : (save S r q t).rows.filter T=t.rows.filter T := by
  obtain ⟨g,hg,hs,-⟩ := LawfulActsAsList.save q hS hm hr h
  rw [hg]
  exact hs.filter_of_disjoint hT hd

theorem apart_destroy : Apart pos ((destroy S r t).rows.filter S) := by
  obtain ⟨g,hg,hs⟩ := LawfulActsAsList.destroy hS hm hr h
  rw [hg]
  refine hs.apart hS (h.sublist (List.filter_sublist.filter S)) (fun v hv _ _ hk => ?_)
  have hne := (List.mem_filter.mp (List.mem_filter.mp hv).1).2
  simp [hk] at hne

theorem filter_destroy_sublist (hT : ∀ p w,T (put p w)=T w) (hd : ∀ w,S w=true → T w=false) :
    ((destroy S r t).rows.filter T).Sublist (t.rows.filter T) := by
  obtain ⟨g,hg,hs⟩ := LawfulActsAsList.destroy hS hm hr h
  rw [hg,hs.filter_of_disjoint hT hd]
  exact List.filter_sublist.filter T

end ActsAsList

/-- The callbacks as they are modelled do what is documented. -/
instance Table.lawfulActsAsList {ρ : Type} [Row ρ] [Listed ρ] : LawfulActsAsList ρ where
  save {S r t} q _ hm hr h := by
    refine ⟨moveRow S r q (t.bottom S) (t.taken S r q),rfl,⟨fun w hw => ?_,?_⟩,?_⟩
    · unfold moveRow
      split_ifs with hk hs
      · rw [t.key_injective hw hm hk]
        exact Or.inr ⟨hr,q,rfl⟩
      · exact Or.inr ⟨(Bool.and_eq_true_iff.mp hs).1,_,rfl⟩
      · exact Or.inl rfl
    · intro v hv w hw hkv hkw x hx y hy hxy
      exact le_of_moveRow_le hm hr h hv hw hkv hkw hx hy hxy
    · intro w hw hk p hp
      exact pos_moveRow_self_ne hm hr h hw hk hp
  destroy {S r t} _ hm hr h := by
    refine ⟨closeRow S (Listed.pos r),rfl,⟨fun w _ => ?_,?_⟩⟩
    · unfold closeRow
      split_ifs with hs
      · exact Or.inr ⟨(Bool.and_eq_true_iff.mp hs).1,_,rfl⟩
      · exact Or.inl rfl
    · have hsub : ((t.delete (Row.key r)).rows.filter S).Sublist (t.rows.filter S) :=
        List.filter_sublist.filter S
      intro v hv w hw hkv hkw x hx y hy hxy
      exact le_of_closeRow_le hm hr h (hsub.subset hv) (hsub.subset hw) hkv hkw hx hy hxy

end Sisfila
