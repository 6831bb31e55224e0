import Mathlib.Data.List.Nodup
import Mathlib.Data.Prod.Lex
import Mathlib.Data.Set.Basic

namespace Sisfila

/-! Several FIFO lanes, served in a fixed order of preference. -/

variable {α β : Type}

/-- Serve the head of the first lane that has one. -/
def serve : List (List α) → Option (α × List (List α))
  | [] => none
  | []::ls => (serve ls).map (fun x => (x.1,[]::x.2))
  | (a::l)::ls => some (a,l::ls)

/-- Seen as one queue, the lanes lose exactly their first element. -/
theorem flatten_of_serve {ls ls' : List (List α)} {a : α} (h : serve ls=some (a,ls')) :
    ls.flatten=a::ls'.flatten := by
  induction ls generalizing ls' with
  | nil => simp [serve] at h
  | cons l ls ih =>
    cases l with
    | nil =>
      simp only [serve,Option.map_eq_some_iff] at h
      obtain ⟨⟨b,ls''⟩,hs,he⟩ := h
      obtain ⟨rfl,rfl⟩ := Prod.mk.inj he
      simpa using ih hs
    | cons b l =>
      obtain ⟨rfl,rfl⟩ := Prod.mk.inj (Option.some.inj h)
      rfl

/-- Lanes kept by owners with distinct names: serving the owner the scan stops at changes that
lane only. -/
theorem serve_map {lane : β → List α} {name : β → Nat} {bs : List β} {b : β} {a : α} {l : List α}
    {p : β → Bool} (hn : (bs.map name).Nodup) (hp : ∀ b ∈ bs,p b=false → lane b=[])
    (hb : bs.find? p=some b) (hl : lane b=a::l) :
    serve (bs.map lane)=some (a,bs.map (fun c => if name c=name b then l else lane c)) := by
  induction bs with
  | nil => simp at hb
  | cons c bs ih =>
    rw [List.map_cons,List.nodup_cons] at hn
    have hne : ∀ d ∈ bs,name d≠name c :=
      fun d hd he => hn.1 (List.mem_map.mpr ⟨d,hd,he⟩)
    rw [List.find?_cons] at hb
    cases hc : p c with
    | true =>
      simp only [hc,Option.some.injEq] at hb
      subst hb
      have hrest : bs.map (fun d => if name d=name c then l else lane d)=bs.map lane :=
        List.map_congr_left (fun d hd => if_neg (hne d hd))
      simp only [List.map_cons,hl,serve,ite_true,hrest]
    | false =>
      simp only [hc] at hb
      have hcb : name c≠name b := Ne.symm (hne b (List.mem_of_find?_eq_some hb))
      have hs := ih hn.2 (fun d hd => hp d (List.mem_cons_of_mem c hd)) hb
      simp only [List.map_cons,hp c List.mem_cons_self hc,serve,hs,Option.map_some,if_neg hcb]

section Preference

variable {κ ι : Type} [LinearOrder κ] [LinearOrder ι] {name : β → κ} {pos : α → ι}
  {lane : β → List α} {bs : List β}

theorem eq_of_pairwise_lt {l : List β} (h : l.Pairwise (fun b c => name b<name c)) {b c : β}
    (hb : b ∈ l) (hc : c ∈ l) (he : name b=name c) : b=c := by
  have hn : (l.map name).Nodup :=
    List.Pairwise.imp (fun h => ne_of_lt h) (List.pairwise_map.mpr h)
  exact List.inj_on_of_nodup_map hn hb hc he

/-- The elements of the lanes, each with its owner. -/
def inLanes (lane : β → List α) (bs : List β) : Set (α × β) := {x | x.2 ∈ bs ∧ x.1 ∈ lane x.2}

/-- First by owner, then by place in the lane. -/
def preference (name : β → κ) (pos : α → ι) (x : α × β) : Lex (κ × ι) :=
  toLex (name x.2,pos x.1)

theorem preference_le_iff {x y : α × β} : preference name pos x≤preference name pos y ↔
    name x.2<name y.2 ∨ name x.2=name y.2 ∧ pos x.1≤pos y.1 := Prod.Lex.toLex_le_toLex

variable (hb : bs.Pairwise (fun b c => name b<name c))
  (hl : ∀ b ∈ bs,(lane b).Pairwise (fun x y => pos x<pos y))

include hb hl in
theorem preference_injOn {x y : α × β} (hx : x ∈ inLanes lane bs) (hy : y ∈ inLanes lane bs)
    (he : preference name pos x=preference name pos y) : x=y := by
  obtain ⟨hn,hp⟩ := Prod.mk.inj (toLex.injective he)
  have hown := eq_of_pairwise_lt hb hx.1 hy.1 hn
  refine Prod.ext (eq_of_pairwise_lt (hl x.2 hx.1) hx.2 ?_ hp) hown
  rw [hown]
  exact hy.2

include hb hl in
/-- The scan for the first lane with an element takes the least one of all. -/
theorem preference_le_of_scan {x : α × β}
    (h : bs.findSome? (fun b => (lane b).head?.map (fun a => (a,b)))=some x) :
    x ∈ inLanes lane bs ∧ ∀ y ∈ inLanes lane bs,preference name pos x≤preference name pos y := by
  induction bs with
  | nil => cases h
  | cons c bs ih =>
    obtain ⟨hc,hbs⟩ := List.pairwise_cons.mp hb
    rw [List.findSome?_cons] at h
    cases hlane : lane c with
    | nil =>
      rw [hlane] at h
      obtain ⟨⟨hx,hmem⟩,hle⟩ := ih hbs (fun b hb => hl b (List.mem_cons_of_mem c hb)) h
      refine ⟨⟨List.mem_cons_of_mem c hx,hmem⟩,?_⟩
      rintro ⟨a,b⟩ ⟨hown,ha⟩
      rcases List.mem_cons.mp hown with rfl | hown
      · simp [hlane] at ha
      · exact hle (a,b) ⟨hown,ha⟩
    | cons e l =>
      rw [hlane] at h
      obtain rfl := Option.some.inj h
      have hsorted := hl c List.mem_cons_self
      rw [hlane] at hsorted
      refine ⟨⟨List.mem_cons_self,hlane ▸ List.mem_cons_self⟩,?_⟩
      rintro ⟨a,b⟩ ⟨hown,ha⟩
      rw [preference_le_iff]
      rcases List.mem_cons.mp hown with rfl | hown
      · rw [hlane] at ha
        refine .inr ⟨rfl,?_⟩
        rcases List.mem_cons.mp ha with rfl | ha
        · exact le_rfl
        · exact le_of_lt ((List.pairwise_cons.mp hsorted).1 a ha)
      · exact .inl (hc b hown)

/-- The scan ends without an element only when no lane has one. -/
theorem scan_eq_none_iff :
    bs.findSome? (fun b => (lane b).head?.map (fun a => (a,b)))=none ↔ inLanes lane bs=∅ := by
  rw [List.findSome?_eq_none_iff,Set.eq_empty_iff_forall_notMem]
  constructor
  · rintro h ⟨a,b⟩ ⟨hown,ha⟩
    have hn := h b hown
    rw [Option.map_eq_none_iff,List.head?_eq_none_iff] at hn
    rw [hn] at ha
    cases ha
  · intro h b hown
    rw [Option.map_eq_none_iff,List.head?_eq_none_iff]
    exact List.eq_nil_iff_forall_not_mem.mpr (fun a ha => h (a,b) ⟨hown,ha⟩)

include hb hl in
theorem scan_eq_some_iff {x : α × β} :
    bs.findSome? (fun b => (lane b).head?.map (fun a => (a,b)))=some x ↔
      x ∈ inLanes lane bs ∧ ∀ y ∈ inLanes lane bs,preference name pos x≤preference name pos y := by
  refine ⟨preference_le_of_scan hb hl,?_⟩
  rintro ⟨hx,hle⟩
  cases h : bs.findSome? (fun b => (lane b).head?.map (fun a => (a,b))) with
  | none =>
    rw [scan_eq_none_iff.mp h] at hx
    cases hx
  | some y =>
    obtain ⟨hy,hle'⟩ := preference_le_of_scan hb hl h
    rw [preference_injOn hb hl hy hx (le_antisymm (hle' x hx) (hle y hy))]

end Preference

end Sisfila
