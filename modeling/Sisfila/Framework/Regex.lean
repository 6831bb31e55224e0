import Sisfila.Framework.Cursor

namespace Sisfila

/-- Regular expressions as a backtracking matcher reads them. Only classes of characters are
repeated, so no repetition can loop on nothing. -/
inductive Regex where
  | empty
  | one (p : Char → Bool)
  | many (p : Char → Bool) (greedy : Bool)
  | seq (r s : Regex)
  | alt (r s : Regex)
  | group (n : Nat) (r : Regex)
  | bol
  | eol

namespace Regex

/-- The texts of the groups a match has gone through. -/
abbrev Groups := List (Nat × List Char)

/-- Where a run of the class may stop, nearest first. -/
def stops (p : Char → Bool) : List Char → List Char → List (Cursor Char)
  | b,[] => [⟨b,[]⟩]
  | b,a::l => ⟨b,a::l⟩::if p a then stops p (a::b) l else []

/-- The text from one place to a later one. -/
def between (c d : Cursor Char) : List Char := c.ahead.take (c.ahead.length-d.ahead.length)

/-- All matches from a place on, in the order the matcher tries them. `^` holds at the beginning and
after a line break, but not at the end of the text; `$` at the end and before a line break. -/
def run : Regex → Cursor Char → List (Cursor Char × Groups)
  | .empty,c => [(c,[])]
  | .one p,⟨b,a::l⟩ => if p a then [(⟨a::b,l⟩,[])] else []
  | .one _,⟨_,[]⟩ => []
  | .many p true,c => (stops p c.behind c.ahead).reverse.map (fun d => (d,[]))
  | .many p false,c => (stops p c.behind c.ahead).map (fun d => (d,[]))
  | .seq r s,c => (r.run c).flatMap (fun x => (s.run x.1).map (fun y => (y.1,x.2++y.2)))
  | .alt r s,c => r.run c++s.run c
  | .group n r,c => (r.run c).map (fun x => (x.1,(n,between c x.1)::x.2))
  | .bol,c => if c.behind=[] ∨ c.behind.head?=some '\n' ∧ c.ahead≠[] then [(c,[])] else []
  | .eol,c => if c.ahead=[] ∨ c.ahead.head?=some '\n' then [(c,[])] else []

/-- The places of a text from the first to the last. -/
def places : List Char → List Char → List (Cursor Char)
  | b,[] => [⟨b,[]⟩]
  | b,a::l => ⟨b,a::l⟩::places (a::b) l

/-- `text =~ r`: the first match from the first place that has one. -/
def search (r : Regex) (text : List Char) : Option Groups :=
  ((places [] text).findSome? (fun c => (r.run c).head?)).map Prod.snd

/-- A fixed text. -/
def word : List Char → Regex
  | [] => .empty
  | a::l => .seq (.one (· == a)) (word l)

/-- One character of the class or more. -/
def some1 (p : Char → Bool) : Regex := .seq (.one p) (.many p true)

/-- The text of group `n`. -/
def text (g : Groups) (n : Nat) : List Char := (g.lookup n).getD []

/-! What a match has read. -/

/-- From `c` to `d` over the text `w`. -/
def Over (w : List Char) (c d : Cursor Char) : Prop :=
  c.ahead=w++d.ahead ∧ d.behind=w.reverse++c.behind

theorem Over.nil (c : Cursor Char) : Over [] c c := ⟨rfl,rfl⟩

theorem Over.append {w v : List Char} {c d e : Cursor Char} (h : Over w c d) (h' : Over v d e) :
    Over (w++v) c e :=
  ⟨by rw [h.1,h'.1,List.append_assoc],by rw [h'.2,h.2,List.reverse_append,List.append_assoc]⟩

theorem mem_stops {p : Char → Bool} {b l : List Char} {d : Cursor Char} :
    d ∈ stops p b l ↔ ∃ w,(∀ a ∈ w,p a=true) ∧ Over w ⟨b,l⟩ d := by
  induction l generalizing b with
  | nil =>
    simp only [stops,List.mem_singleton]
    constructor
    · rintro rfl
      exact ⟨[],by simp,Over.nil _⟩
    · rintro ⟨w,-,h,hb⟩
      obtain ⟨rfl,hd⟩ := List.append_eq_nil_iff.mp h.symm
      exact Cursor.ext hb hd
  | cons a l ih =>
    simp only [stops,List.mem_cons]
    constructor
    · rintro (rfl | h)
      · exact ⟨[],by simp,Over.nil _⟩
      · split_ifs at h with ha
        · obtain ⟨w,hw,ho,hb⟩ := ih.mp h
          refine ⟨a::w,List.forall_mem_cons.mpr ⟨ha,hw⟩,?_,?_⟩
          · simpa using ho
          · simpa using hb
        · cases h
    · rintro ⟨w,hw,ho,hb⟩
      cases w with
      | nil => exact Or.inl (Cursor.ext hb ho.symm)
      | cons x w =>
        obtain ⟨rfl,hl⟩ := List.cons.inj ho
        obtain ⟨ha,hw⟩ := List.forall_mem_cons.mp hw
        rw [if_pos ha]
        exact Or.inr (ih.mpr ⟨w,hw,hl,by simpa using hb⟩)

section membership

variable {u v w : List Char} {c d : Cursor Char}

theorem over_nil_iff : Over [] c d ↔ d=c := by
  constructor
  · intro h
    exact Cursor.ext h.2 h.1.symm
  · rintro rfl
    exact Over.nil d

theorem over_append_iff : Over (u++v) c d ↔ ∃ e,Over u c e ∧ Over v e d := by
  constructor
  · rintro ⟨ho,hb⟩
    refine ⟨⟨u.reverse++c.behind,v++d.ahead⟩,⟨?_,rfl⟩,⟨rfl,?_⟩⟩
    · rw [ho,List.append_assoc]
    · rw [hb,List.reverse_append,List.append_assoc]
  · rintro ⟨e,h,h'⟩
    exact h.append h'

theorem Over.between (h : Over w c d) : between c d=w := by
  rw [Regex.between,h.1]
  simp

/-- The texts an expression stands for; the anchors take none. -/
def Lang : Regex → List Char → Prop
  | .empty,w => w=[]
  | .one p,w => ∃ a,p a=true ∧ w=[a]
  | .many p _,w => ∀ a ∈ w,p a=true
  | .seq r s,w => ∃ u v,r.Lang u ∧ s.Lang v ∧ w=u++v
  | .alt r s,w => r.Lang w ∨ s.Lang w
  | .group _ r,w => r.Lang w
  | .bol,w => w=[]
  | .eol,w => w=[]

def anchorless : Regex → Bool
  | .seq r s => r.anchorless && s.anchorless
  | .alt r s => r.anchorless && s.anchorless
  | .group _ r => r.anchorless
  | .bol => false
  | .eol => false
  | _ => true

theorem mem_run_one {p : Char → Bool} {g : Groups} :
    (d,g) ∈ (one p).run c ↔ g=[] ∧ ∃ a,p a=true ∧ Over [a] c d := by
  obtain ⟨b,l⟩ := c
  cases l with
  | nil => simp [run,Over]
  | cons x l =>
    simp only [run]
    split_ifs with hx
    · simp only [List.mem_singleton,Prod.mk.injEq]
      constructor
      · rintro ⟨rfl,rfl⟩
        exact ⟨rfl,x,hx,rfl,rfl⟩
      · rintro ⟨rfl,a,-,ho,hb⟩
        obtain ⟨rfl,rfl⟩ := List.cons.inj ho
        exact ⟨Cursor.ext hb rfl,rfl⟩
    · refine iff_of_false List.not_mem_nil ?_
      rintro ⟨-,a,ha,ho,-⟩
      obtain ⟨rfl,-⟩ := List.cons.inj ho
      exact hx ha

theorem mem_run_many {p : Char → Bool} {greedy : Bool} {g : Groups} :
    (d,g) ∈ (many p greedy).run c ↔ g=[] ∧ ∃ w,(∀ a ∈ w,p a=true) ∧ Over w c d := by
  rw [← mem_stops]
  cases greedy <;> simp [run,and_comm,eq_comm]

/-- The matcher finds every text of the expression and no other, in whatever order. -/
theorem exists_mem_run {r : Regex} (h : r.anchorless=true) :
    (∃ g,(d,g) ∈ r.run c) ↔ ∃ w,r.Lang w ∧ Over w c d := by
  induction r generalizing c d with
  | empty => simp [run,Lang,over_nil_iff]
  | one p =>
    simp only [mem_run_one,exists_eq_left,Lang]
    constructor
    · rintro ⟨a,ha,ho⟩
      exact ⟨[a],⟨a,ha,rfl⟩,ho⟩
    · rintro ⟨_,⟨a,ha,rfl⟩,ho⟩
      exact ⟨a,ha,ho⟩
  | many p greedy => simp only [mem_run_many,exists_eq_left,Lang]
  | seq r s ihr ihs =>
    rw [anchorless,Bool.and_eq_true] at h
    simp only [run,List.mem_flatMap,List.mem_map,Prod.mk.injEq,Prod.exists,Lang]
    constructor
    · rintro ⟨_,e,g,hr,_,g',hs,rfl,rfl⟩
      obtain ⟨u,hu,ho⟩ := (ihr h.1).mp ⟨g,hr⟩
      obtain ⟨v,hv,ho'⟩ := (ihs h.2).mp ⟨g',hs⟩
      exact ⟨u++v,⟨u,v,hu,hv,rfl⟩,ho.append ho'⟩
    · rintro ⟨_,⟨u,v,hu,hv,rfl⟩,ho⟩
      obtain ⟨e,hue,hve⟩ := over_append_iff.mp ho
      obtain ⟨g,hr⟩ := (ihr h.1).mpr ⟨u,hu,hue⟩
      obtain ⟨g',hs⟩ := (ihs h.2).mpr ⟨v,hv,hve⟩
      exact ⟨g++g',e,g,hr,d,g',hs,rfl,rfl⟩
  | alt r s ihr ihs =>
    rw [anchorless,Bool.and_eq_true] at h
    simp only [run,List.mem_append,Lang,exists_or,or_and_right,ihr h.1,ihs h.2]
  | group n r ih =>
    simp only [run,List.mem_map,Prod.mk.injEq,Prod.exists,Lang]
    rw [← ih h]
    constructor
    · rintro ⟨_,e,g,hr,rfl,-⟩
      exact ⟨g,hr⟩
    · rintro ⟨g,hr⟩
      exact ⟨_,d,g,hr,rfl,rfl⟩
  | bol => cases h
  | eol => cases h

theorem lang_word {l w : List Char} : (word l).Lang w ↔ w=l := by
  induction l generalizing w with
  | nil => rfl
  | cons a l ih => simp [word,Lang,ih]

theorem lang_some1 {p : Char → Bool} {w : List Char} :
    (some1 p).Lang w ↔ w≠[] ∧ ∀ a ∈ w,p a=true := by
  simp only [some1,Lang]
  constructor
  · rintro ⟨_,v,⟨a,ha,rfl⟩,hv,rfl⟩
    exact ⟨by simp,List.forall_mem_cons.mpr ⟨ha,hv⟩⟩
  · rintro ⟨hne,hw⟩
    cases w with
    | nil => exact absurd rfl hne
    | cons a w =>
      obtain ⟨ha,hw⟩ := List.forall_mem_cons.mp hw
      exact ⟨[a],w,⟨a,ha,rfl⟩,hw,rfl⟩

end membership

/-! The match that is tried first. -/

section first

variable {c : Cursor Char} {r s : Regex}

theorem first_seq {x y : Cursor Char × Groups} {xs : List (Cursor Char × Groups)}
    (hr : r.run c=x::xs) (hs : (s.run x.1).head?=some y) :
    ((seq r s).run c).head?=some (y.1,x.2++y.2) := by
  rw [run,hr,List.flatMap_cons,List.head?_append,List.head?_map,hs]
  rfl

theorem seq_eq_nil (hr : r.run c=[]) : (seq r s).run c=[] := by
  rw [run,hr,List.flatMap_nil]

/-- A greedy run of a class stops last where the class ends. -/
theorem getLast_stops (p : Char → Bool) (b l : List Char) :
    (stops p b l).getLast?=some ⟨(l.takeWhile p).reverse++b,l.dropWhile p⟩ := by
  induction l generalizing b with
  | nil => rfl
  | cons a l ih =>
    rw [stops]
    cases ha : p a with
    | false => simp [ha]
    | true =>
      rw [if_pos rfl,List.getLast?_cons,ih,Option.getD_some,List.takeWhile_cons_of_pos ha,
        List.dropWhile_cons_of_pos ha,List.reverse_cons,List.append_assoc]
      rfl

theorem first_many (p : Char → Bool) (c : Cursor Char) : ∃ xs,(many p true).run c=
    (⟨(c.ahead.takeWhile p).reverse++c.behind,c.ahead.dropWhile p⟩,[])::xs := by
  have hl := getLast_stops p c.behind c.ahead
  rw [← List.head?_reverse] at hl
  rw [run]
  cases hs : (stops p c.behind c.ahead).reverse with
  | nil =>
    rw [hs] at hl
    cases hl
  | cons d ds =>
    rw [hs] at hl
    obtain rfl := Option.some.inj hl
    exact ⟨_,rfl⟩

/-- One or more of a class, taken as far as they go. -/
theorem first_some1 {p : Char → Bool} {l : List Char} (h : l.takeWhile p≠[]) (b : List Char) :
    ∃ xs,(some1 p).run ⟨b,l⟩=(⟨(l.takeWhile p).reverse++b,l.dropWhile p⟩,[])::xs := by
  cases l with
  | nil => exact absurd rfl h
  | cons a l =>
    cases ha : p a with
    | false => exact absurd (List.takeWhile_cons_of_neg (by simp [ha])) h
    | true =>
      obtain ⟨xs,hxs⟩ := first_many p ⟨a::b,l⟩
      have hone : (one p).run ⟨b,a::l⟩=[(⟨a::b,l⟩,[])] := by simp [run,ha]
      rw [List.takeWhile_cons_of_pos ha,List.dropWhile_cons_of_pos ha,List.reverse_cons,
        List.append_assoc,some1,run,hone,List.flatMap_singleton,hxs]
      exact ⟨_,rfl⟩

/-- A lazy run that has to reach `$` goes to the end of the line. -/
theorem findSome_stops {α : Type} (p : Char → Bool) (b l : List Char)
    (hp : ∀ a ∈ l,p a=true ∧ a≠ '\n') (f : Cursor Char → α) :
    (stops p b l).findSome? (fun d => (eol.run d).head?.map (fun _ => f d))=
      some (f ⟨l.reverse++b,[]⟩) := by
  induction l generalizing b with
  | nil => rfl
  | cons a l ih =>
    obtain ⟨⟨ha,hn⟩,hl⟩ := List.forall_mem_cons.mp hp
    have he : eol.run ⟨b,a::l⟩=[] := by simp [run,hn]
    rw [stops,if_pos ha,List.findSome?_cons,he]
    have hi := ih (a::b) hl
    rw [List.reverse_cons,List.append_assoc]
    exact hi

theorem first_lazy_eol {p : Char → Bool} (hp : ∀ a ∈ c.ahead,p a=true ∧ a≠ '\n') (n : Nat) :
    ((seq (group n (many p false)) eol).run c).head?=
      some (⟨c.ahead.reverse++c.behind,[]⟩,[(n,c.ahead)]) := by
  have hf := findSome_stops p c.behind c.ahead hp
    (fun d => (d,[(n,between c d)]))
  have hb : between c ⟨c.ahead.reverse++c.behind,[]⟩=c.ahead := by simp [between]
  rw [hb] at hf
  rw [← hf,run,run,run,List.head?_flatMap,List.map_map,List.findSome?_map]
  congr 1
  funext d
  by_cases he : d.ahead=[] ∨ d.ahead.head?=some '\n'
  · simp [run,he]
  · simp [run,he]

/-- Where no line break has more text after it `^` holds at the first place only. -/
theorem search_bol {l : List Char} (hl : '\n' ∉ l.dropLast) :
    search (seq bol r) l=((r.run ⟨[],l⟩).head?).map Prod.snd := by
  have hrest : ∀ a k b,'\n' ∉ (a::k).dropLast →
      (places (a::b) k).findSome? (fun c => ((seq bol r).run c).head?)=none := by
    intro a k
    induction k generalizing a with
    | nil =>
      intro b _
      have he : (seq bol r).run ⟨a::b,[]⟩=[] := seq_eq_nil (by simp [run])
      simp [places,he]
    | cons x k ih =>
      intro b hn
      rw [List.dropLast_cons_cons,List.mem_cons,not_or] at hn
      have he : (seq bol r).run ⟨a::b,x::k⟩=[] := seq_eq_nil (by simp [run,Ne.symm hn.1])
      rw [places,List.findSome?_cons,he]
      exact ih x (a::b) hn.2
  have hfirst : (seq bol r).run ⟨[],l⟩=r.run ⟨[],l⟩ := by simp [run]
  unfold search
  cases l with
  | nil => simp [places,hfirst]
  | cons a l =>
    rw [places,List.findSome?_cons,hfirst]
    cases hr : (r.run ⟨[],a::l⟩).head? with
    | some x => rfl
    | none =>
      simp only []
      rw [hrest a l [] hl]

/-- Such a search succeeds where a text of the expression begins the line. -/
theorem search_bol_isSome {l : List Char} (hl : '\n' ∉ l.dropLast) (hr : r.anchorless=true) :
    (search (seq bol r) l).isSome ↔ ∃ w,r.Lang w ∧ w <+: l := by
  have hne : (search (seq bol r) l).isSome ↔ ∃ d,∃ g,(d,g) ∈ r.run ⟨[],l⟩ := by
    rw [search_bol hl,Option.isSome_map,List.isSome_head?]
    constructor
    · intro h
      obtain ⟨⟨d,g⟩,hx⟩ := List.exists_mem_of_ne_nil _ h
      exact ⟨d,g,hx⟩
    · rintro ⟨d,g,hx⟩
      exact List.ne_nil_of_mem hx
  rw [hne]
  constructor
  · rintro ⟨d,hd⟩
    obtain ⟨w,hw,ho⟩ := (exists_mem_run hr).mp hd
    exact ⟨w,hw,d.ahead,ho.1.symm⟩
  · rintro ⟨w,hw,k,hk⟩
    exact ⟨⟨w.reverse++[],k⟩,(exists_mem_run hr).mpr ⟨w,hw,hk.symm,rfl⟩⟩

end first

end Regex

end Sisfila
