import Sisfila.Concurrency.Requests
import Sisfila.Framework.Counter

namespace Sisfila

/-- The pointer of fila `f`. -/
def Core.ponteiro (k : Core) (f : Nat) : Option Int := (k.filas.find f).map FilaBase.posicao

theorem Core.ponteiro_of_mem {k : Core} {f : FilaBase} (hf : f ∈ k.filas.rows) :
    k.ponteiro f.id=some f.posicao :=
  congrArg (Option.map FilaBase.posicao) (Table.find_of_mem hf)

theorem Core.ponteiro_incrementa (k : Core) (f g : Nat) (n : Int) :
    (k.incrementa f n).ponteiro g=if g=f then (k.ponteiro g).map (· + n) else k.ponteiro g := by
  unfold Core.ponteiro Core.incrementa
  rw [Table.find_modify,Option.map_map]
  split_ifs with h
  · subst h
    cases hg : k.filas.find g with
    | none => rfl
    | some b =>
      have hb := Table.key_of_find hg
      simp only [Row.key_filaBase] at hb
      simp [hb]
  · cases hg : k.filas.find g with
    | none => rfl
    | some b =>
      have hb := Table.key_of_find hg
      simp only [Row.key_filaBase] at hb
      simp [hb,h]

section eventos

variable {ι : Type} [DecidableEq ι]

/-- The pointer moves and desk writes of request `i`, newest first. -/
def meus (i : ι) (tr : List (ι × Evento)) : List Evento :=
  (tr.filter (fun e => decide (e.1=i) && e.2.atende)).map Prod.snd

/-- Request `i` has loaded its filas. -/
def carregou (i : ι) (tr : List (ι × Evento)) : Bool :=
  tr.any (fun e => decide (e.1=i) && e.2==.carrega)

/-- Nobody has moved the pointer of fila `f` since `i` loaded its filas. -/
def intacta (i : ι) (f : Nat) : List (ι × Evento) → Bool
  | [] => true
  | (_,.incrementa g _)::tr => (!(g==f) || !carregou i tr) && intacta i f tr
  | _::tr => intacta i f tr

/-- The schedule leaves no move of the same pointer between the load of a request and its
`increment!`. -/
def semCorrida (x : Obs ι Evento World) (i : ι) : Evento → Prop
  | .incrementa f _ => intacta i f x.trace=true
  | _ => True

instance (x : Obs ι Evento World) (i : ι) : (e : Evento) → Decidable (semCorrida x i e)
  | .incrementa f _ => inferInstanceAs (Decidable (intacta i f x.trace=true))
  | .consulta | .grava | .carrega | .associa _ _ | .busca _ | .testa _ _ | .cria _ _ _
  | .difunde _ => isTrue trivial

omit [DecidableEq ι] in
/-- Where the pointer of `f` was moved to, newest first. -/
def movimentos (f : Nat) (tr : List (ι × Evento)) : List Int :=
  tr.filterMap (fun e => match e.2 with
    | .incrementa g p => if g=f then some p else none
    | _ => none)

omit [DecidableEq ι] in
/-- The vagas put on a desk, newest first. -/
def assentos (tr : List (ι × Evento)) : List Nat :=
  tr.filterMap (fun e => match e.2 with
    | .associa _ v => v
    | _ => none)

omit [DecidableEq ι] in
theorem mem_movimentos {f : Nat} {p : Int} {tr : List (ι × Evento)} :
    p ∈ movimentos f tr ↔ ∃ i,(i,.incrementa f p) ∈ tr := by
  unfold movimentos
  rw [List.mem_filterMap]
  constructor
  · intro ⟨⟨i,e⟩,hi,he⟩
    cases e with
    | incrementa g q =>
      simp only [Option.ite_none_right_eq_some,Option.some.injEq] at he
      obtain ⟨rfl,rfl⟩ := he
      exact ⟨i,hi⟩
    | _ => cases he
  · intro ⟨i,hi⟩
    exact ⟨_,hi,by simp⟩

omit [DecidableEq ι] in
theorem mem_assentos {v : Nat} {tr : List (ι × Evento)} :
    v ∈ assentos tr ↔ ∃ i m,(i,.associa m (some v)) ∈ tr := by
  unfold assentos
  rw [List.mem_filterMap]
  constructor
  · intro ⟨⟨i,e⟩,hi,he⟩
    cases e with
    | associa m u =>
      obtain rfl : u=some v := he
      exact ⟨i,m,hi⟩
    | _ => cases he
  · intro ⟨i,m,hi⟩
    exact ⟨_,hi,rfl⟩

end eventos

namespace Desks

/-- What a request has done so far: nothing, moved a pointer, put the vaga it moved to on its desk,
or emptied its desk. -/
inductive Forma (k : Core) : List Evento → Prop
  | nada : Forma k []
  | movida (f : Nat) (p : Int) : Forma k [.incrementa f p]
  | feita (m f : Nat) (p : Int) :
      Forma k [.associa m ((k.vagaEm f p).map (fun v => v.id)),.incrementa f p]
  | vazia (m : Nat) : Forma k [.associa m none]

variable {ι : Type} [DecidableEq ι]

/-- What request `i` may rely on. -/
structure Rely (i : ι) (x y : Obs ι Evento World) : Prop where
  vagas : y.core.vagas=x.core.vagas
  mesas : ∀ d,(y.core.mesas.find d).isSome=(x.core.mesas.find d).isSome
  eventos : meus i y.trace=meus i x.trace
  carregou : carregou i x.trace=true → carregou i y.trace=true
  ponteiro : Sisfila.carregou i x.trace=true → ∀ f,intacta i f y.trace=true →
    intacta i f x.trace=true ∧ y.core.ponteiro f=x.core.ponteiro f

/-- What a statement of request `i` does. -/
structure Avanca (i : ι) (e : Evento) (x y : Obs ι Evento World) : Prop where
  trace : y.trace=(i,e)::x.trace
  vagas : y.core.vagas=x.core.vagas
  mesas : ∀ d,(y.core.mesas.find d).isSome=(x.core.mesas.find d).isSome
  ponteiro : (∀ f p,e≠.incrementa f p) ∧ (∀ f,y.core.ponteiro f=x.core.ponteiro f) ∨
    ∃ f p,e=.incrementa f (p+1) ∧ x.core.ponteiro f=some p ∧ y.core.ponteiro f=some (p+1) ∧
      ∀ g,g≠f → y.core.ponteiro g=x.core.ponteiro g
  forma : Forma y.core (meus i y.trace)

def Guarantee (i : ι) (x y : Obs ι Evento World) : Prop := ∃ e,Avanca i e x y

theorem Rely.refl (i : ι) (x : Obs ι Evento World) : Rely i x x :=
  ⟨rfl,fun _ => rfl,rfl,id,fun _ _ h => ⟨h,rfl⟩⟩

theorem Rely.trans (i : ι) (x y z : Obs ι Evento World) (h : Rely i x y) (h' : Rely i y z) :
    Rely i x z where
  vagas := h'.vagas.trans h.vagas
  mesas := fun d => (h'.mesas d).trans (h.mesas d)
  eventos := h'.eventos.trans h.eventos
  carregou := fun hc => h'.carregou (h.carregou hc)
  ponteiro := by
    intro hc f hf
    obtain ⟨hy,hz⟩ := h'.ponteiro (h.carregou hc) f hf
    obtain ⟨hx,he⟩ := h.ponteiro hc f hy
    exact ⟨hx,hz.trans he⟩

theorem intacta_cons {i j : ι} {e : Evento} (f : Nat) (tr : List (ι × Evento))
    (he : ∀ p,e≠.incrementa f p) : intacta i f ((j,e)::tr)=intacta i f tr := by
  cases e with
  | incrementa g p =>
    have hg : g≠f := fun h => he p (by rw [h])
    simp [intacta,hg]
  | _ => rfl

theorem intacta_incrementa {i j : ι} {f : Nat} {p : Int} {tr : List (ι × Evento)}
    (hc : carregou i tr=true) : intacta i f ((j,.incrementa f p)::tr)=false := by
  simp [intacta,hc]

theorem carregou_cons {i j : ι} {e : Evento} {tr : List (ι × Evento)} (h : carregou i tr=true) :
    carregou i ((j,e)::tr)=true := by
  rw [carregou,List.any_cons]
  rw [carregou] at h
  rw [h,Bool.or_true]

/-- The others rely on no more than every statement gives. -/
theorem Guarantee.rely {i j : ι} (hij : i≠j) {x y : Obs ι Evento World} (h : Guarantee i x y) :
    Rely j x y := by
  obtain ⟨e,h⟩ := h
  refine ⟨h.vagas,h.mesas,?_,?_,?_⟩
  · rw [h.trace]
    simp [meus,hij]
  · intro hc
    rw [h.trace]
    exact carregou_cons hc
  · intro hc f hf
    rw [h.trace] at hf
    rcases h.ponteiro with ⟨he,hp⟩ | ⟨g,p,rfl,hx,hy,hp⟩
    · rw [intacta_cons f _ (he f)] at hf
      exact ⟨hf,hp f⟩
    · by_cases hg : f=g
      · subst hg
        rw [intacta_incrementa hc] at hf
        cases hf
      · rw [intacta_cons f _ (fun q hq => hg (Evento.incrementa.inj hq).1.symm)] at hf
        exact ⟨hf,hp f hg⟩

variable {i : ι} {x y : Obs ι Evento World}

/-- A quiet statement of `i` itself is like none. -/
theorem Rely.quieto {l : World → Evento} {w : World → World} (h : Quieto l w) (i : ι)
    (x : Obs ι Evento World) : Rely i x (x.push i l w) := by
  have hk : (x.push i l w).core=x.core := h.2 x.state
  have ha := Evento.atende_of_marca (h.1 x.state)
  have hn : ∀ f p,l x.state≠.incrementa f p := by
    intro f p he
    rw [he] at ha
    cases ha
  refine ⟨by rw [hk],fun d => by rw [hk],by simp [meus,ha],fun hc => carregou_cons hc,?_⟩
  intro _ f hf
  rw [Obs.push_trace,intacta_cons f _ (hn f)] at hf
  exact ⟨hf,by rw [hk]⟩

theorem Guarantee.quieto {l : World → Evento} {w : World → World} (h : Quieto l w)
    (hf : Forma x.core (meus i x.trace)) : Guarantee i x (x.push i l w) := by
  have hk : (x.push i l w).core=x.core := h.2 x.state
  have hr := Rely.quieto h i x
  have ha := Evento.atende_of_marca (h.1 x.state)
  refine ⟨l x.state,rfl,hr.vagas,hr.mesas,Or.inl ⟨?_,fun f => by rw [hk]⟩,?_⟩
  · intro f p he
    rw [he] at ha
    cases ha
  · rw [hk,hr.eventos]
    exact hf

theorem firme {A : Obs ι Evento World → Prop} (hA : Prog.Stable (Rely i) A)
    (hF : ∀ x,A x → Forma x.core (meus i x.trace)) : Firme i (Rely i) (Guarantee i) A :=
  Firme.of_stable (fun _ _ x hq => Rely.quieto hq i x) hA
    (fun _ _ x hq hx => Guarantee.quieto hq (hF x hx))

theorem mem_meus {i : ι} {e : Evento} {tr : List (ι × Evento)} :
    e ∈ meus i tr ↔ (i,e) ∈ tr ∧ e.atende=true := by
  unfold meus
  constructor
  · intro h
    obtain ⟨⟨j,e'⟩,hm,rfl⟩ := List.mem_map.mp h
    obtain ⟨htr,hp⟩ := List.mem_filter.mp hm
    obtain ⟨hj,ha⟩ := Bool.and_eq_true_iff.mp hp
    obtain rfl : j=i := of_decide_eq_true hj
    exact ⟨htr,ha⟩
  · intro ⟨hm,ha⟩
    refine List.mem_map.mpr ⟨(i,e),List.mem_filter.mpr ⟨hm,?_⟩,rfl⟩
    simp [ha]

theorem meus_cons {e : Evento} (he : e.atende=true) (tr : List (ι × Evento)) :
    meus i ((i,e)::tr)=e::meus i tr := by
  simp [meus,he]

theorem Forma.congr {k k' : Core} (hv : k'.vagas=k.vagas) {l : List Evento} (h : Forma k l) :
    Forma k' l := by
  have he : ∀ f p,k'.vagaEm f p=k.vagaEm f p := by
    intro f p
    unfold Core.vagaEm Core.vagasDe
    rw [hv]
  cases h with
  | nada => exact .nada
  | movida f p => exact .movida f p
  | feita m f p =>
    rw [← he]
    exact .feita m f p
  | vazia m => exact .vazia m

/-- Whoever seats a vaga moved a pointer onto it. -/
theorem Forma.assento {k : Core} {l : List Evento} (h : Forma k l) {m v : Nat}
    (hm : .associa m (some v) ∈ l) :
    ∃ f p w,l=[.associa m (some v),.incrementa f p] ∧ k.vagaEm f p=some w ∧ w.id=v := by
  cases h with
  | nada => cases hm
  | movida f p => simp at hm
  | vazia d => simp at hm
  | feita d f p =>
    simp only [List.mem_cons,Evento.associa.injEq,reduceCtorEq,List.not_mem_nil,or_false] at hm
    obtain ⟨rfl,hv⟩ := hm
    obtain ⟨w,hw,hid⟩ := Option.map_eq_some_iff.mp hv.symm
    exact ⟨f,p,w,by rw [← hv],hw,hid⟩

/-- What holds at every moment of a run without races. -/
structure Inv (k₀ : Core) (x : Obs ι Evento World) : Prop where
  vagas : x.core.vagas=k₀.vagas
  contada : ∀ f,Counted (k₀.ponteiro f) (x.core.ponteiro f) (movimentos f x.trace)
  forma : ∀ i,Forma x.core (meus i x.trace)
  unicos : (assentos x.trace).Nodup

theorem Avanca.contada {e : Evento} (h : Avanca i e x y) {f : Nat} {a : Option Int}
    (hx : Counted a (x.core.ponteiro f) (movimentos f x.trace)) :
    Counted a (y.core.ponteiro f) (movimentos f y.trace) := by
  rw [h.trace]
  have hsame : (∀ p,e≠.incrementa f p) →
      movimentos f ((i,e)::x.trace)=movimentos f x.trace := by
    intro hn
    cases e with
    | incrementa g p =>
      have hg : g≠f := fun h => hn p (by rw [h])
      simp [movimentos,hg]
    | _ => rfl
  rcases h.ponteiro with ⟨hn,hp⟩ | ⟨g,p,rfl,hpx,hpy,hp⟩
  · rw [hsame (hn f),hp]
    exact hx
  · by_cases hg : f=g
    · subst hg
      have hm : movimentos f ((i,.incrementa f (p+1))::x.trace)=(p+1)::movimentos f x.trace := by
        simp [movimentos]
      rw [hpx] at hx
      rw [hm,hpy]
      exact hx.inc
    · rw [hsame (fun q hq => hg (Evento.incrementa.inj hq).1.symm),hp f hg]
      exact hx

omit [DecidableEq ι] in
/-- Two moves of one pointer to the same position are the same event. -/
theorem dono_unico {f : Nat} {a o : Option Int} {tr : List (ι × Evento)}
    (h : Counted a o (movimentos f tr)) {i j : ι} {p : Int} (hi : (i,.incrementa f p) ∈ tr)
    (hj : (j,.incrementa f p) ∈ tr) : i=j := by
  have he := eq_of_nodup_filterMap h.nodup (c := p) hi hj (by simp) (by simp)
  exact (Prod.mk.inj he).1

/-- Two seats of one vaga are by the same request: both moved the same pointer to its position. -/
theorem assento_unico {a o : Nat → Option Int} {k : Core} {tr : List (ι × Evento)}
    (hc : ∀ f,Counted (a f) (o f) (movimentos f tr)) (hf : ∀ i,Forma k (meus i tr)) {i j : ι}
    {m d v : Nat} (hi : (i,.associa m (some v)) ∈ tr) (hj : (j,.associa d (some v)) ∈ tr) :
    i=j := by
  obtain ⟨f,p,w,hl,hw,hwi⟩ := (hf i).assento (mem_meus.mpr ⟨hi,rfl⟩)
  obtain ⟨g,q,u,hl',hu,hui⟩ := (hf j).assento (mem_meus.mpr ⟨hj,rfl⟩)
  obtain ⟨hwr,hwf,hwp⟩ := Core.mem_of_vagaEm hw
  obtain ⟨hur,huf,hup⟩ := Core.mem_of_vagaEm hu
  have hwu : w=u := k.vagas.key_injective hwr hur (hwi.trans hui.symm)
  subst hwu
  obtain rfl : f=g := Option.some.inj (hwf.symm.trans huf)
  obtain rfl : p=q := Option.some.inj (hwp.symm.trans hup)
  have hmi : .incrementa f p ∈ meus i tr := by simp [hl]
  have hmj : .incrementa f p ∈ meus j tr := by simp [hl']
  exact dono_unico (hc f) (mem_meus.mp hmi).1 (mem_meus.mp hmj).1

/-- A request that now seats `v` writes its desk for the first time, so nobody has seated `v`. -/
theorem Avanca.assento_novo {m v : Nat} (h : Avanca i (.associa m (some v)) x y)
    {a o : Nat → Option Int} (hc : ∀ f,Counted (a f) (o f) (movimentos f y.trace))
    (hf : ∀ j,Forma y.core (meus j y.trace)) : v ∉ assentos x.trace := by
  intro hv
  obtain ⟨j,d,hj⟩ := mem_assentos.mp hv
  have htr := h.trace
  have hi : (i,.associa m (some v)) ∈ y.trace := by simp [htr]
  have hj' : (j,.associa d (some v)) ∈ y.trace := by
    rw [htr]
    exact List.mem_cons_of_mem _ hj
  obtain rfl : i=j := assento_unico hc hf hi hj'
  obtain ⟨f,p,w,hl,_⟩ := (hf i).assento (mem_meus.mpr ⟨hi,rfl⟩)
  have hold : .associa d (some v) ∈ meus i x.trace := mem_meus.mpr ⟨hj,rfl⟩
  rw [htr,meus_cons rfl] at hl
  rw [(List.cons.inj hl).2] at hold
  simp at hold

/-- Every statement of a request keeps the invariant. -/
theorem Inv.avanca {k₀ : Core} (hx : Inv k₀ x) (hg : Guarantee i x y) : Inv k₀ y := by
  obtain ⟨e,h⟩ := hg
  have hc : ∀ f,Counted (k₀.ponteiro f) (y.core.ponteiro f) (movimentos f y.trace) :=
    fun f => h.contada (hx.contada f)
  have hf : ∀ j,Forma y.core (meus j y.trace) := by
    intro j
    by_cases hj : i=j
    · subst hj
      exact h.forma
    · have hr := Guarantee.rely hj ⟨e,h⟩
      rw [hr.eventos]
      exact (hx.forma j).congr h.vagas
  refine ⟨h.vagas.trans hx.vagas,hc,hf,?_⟩
  have htr := h.trace
  cases e with
  | associa m v =>
    cases v with
    | none =>
      rw [htr]
      exact hx.unicos
    | some v =>
      have hnew := h.assento_novo hc hf
      rw [htr]
      exact List.nodup_cons.mpr ⟨hnew,hx.unicos⟩
  | _ =>
    rw [htr]
    exact hx.unicos

/-! The outline of a call. -/

/-- Nothing done yet. -/
structure Livre (i : ι) (m : Nat) (x : Obs ι Evento World) : Prop where
  eventos : meus i x.trace=[]
  mesa : (x.core.mesas.find m).isSome

/-- Fila `f` is loaded; as long as nobody has moved its pointer it is as stored. -/
structure Carregada (i : ι) (m : Nat) (f : Fila) (x : Obs ι Evento World) : Prop where
  livre : Livre i m x
  carregou : carregou i x.trace=true
  atual : intacta i f.id x.trace=true → x.core.ponteiro f.id=some f.posicao

/-- The pointer has moved. -/
structure Movida (i : ι) (m : Nat) (f : Fila) (x : Obs ι Evento World) : Prop where
  eventos : meus i x.trace=[.incrementa f.id (f.posicao+1)]
  mesa : (x.core.mesas.find m).isSome

/-- Finished: every move is followed by a desk write. -/
structure Feita (i : ι) (x : Obs ι Evento World) : Prop where
  forma : Forma x.core (meus i x.trace)
  completa : ∀ f p,meus i x.trace≠[.incrementa f p]

variable {m : Nat}

theorem Livre.forma (h : Livre i m x) : Forma x.core (meus i x.trace) := by
  rw [h.eventos]
  exact .nada

theorem Movida.forma {f : Fila} (h : Movida i m f x) : Forma x.core (meus i x.trace) := by
  rw [h.eventos]
  exact .movida _ _

theorem Livre.stable : Prog.Stable (Rely i) (Livre i m) := by
  intro x y hx h
  exact ⟨h.eventos.trans hx.eventos,by rw [h.mesas]; exact hx.mesa⟩

theorem Carregada.stable (f : Fila) : Prog.Stable (Rely i) (Carregada i m f) := by
  intro x y hx h
  refine ⟨Livre.stable x y hx.livre h,h.carregou hx.carregou,?_⟩
  intro hf
  obtain ⟨hi,hp⟩ := h.ponteiro hx.carregou f.id hf
  exact hp.trans (hx.atual hi)

theorem Movida.stable (f : Fila) : Prog.Stable (Rely i) (Movida i m f) := by
  intro x y hx h
  exact ⟨h.eventos.trans hx.eventos,by rw [h.mesas]; exact hx.mesa⟩

theorem Feita.stable : Prog.Stable (Rely i) (Feita i) := by
  intro x y hx h
  refine ⟨?_,?_⟩
  · rw [h.eventos]
    exact hx.forma.congr h.vagas
  · rw [h.eventos]
    exact hx.completa

theorem vagaEm_of_rely (h : Rely i x y) (f : Nat) (p : Int) :
    y.core.vagaEm f p=x.core.vagaEm f p := by
  unfold Core.vagaEm Core.vagasDe
  rw [h.vagas]

/-- Without a race the stored pointer moves exactly one past the loaded one. -/
theorem Carregada.incrementa {f : Fila} (h : Carregada i m f x)
    (hok : intacta i f.id x.trace=true) :
    Guarantee i x (x.incrementa i f.id 1) ∧ Movida i m f (x.incrementa i f.id 1) := by
  have hp := h.atual hok
  obtain ⟨b,hb,hbp⟩ := Option.map_eq_some_iff.mp hp
  have hid : b.id=f.id := Table.key_of_find hb
  have htr : (x.incrementa i f.id 1).trace=(i,.incrementa f.id (f.posicao+1))::x.trace := by
    rw [← hid] at hb ⊢
    rw [Obs.trace_incrementa i 1 hb,hbp]
  have hk := x.core_incrementa i f.id 1
  have hm : meus i (x.incrementa i f.id 1).trace=[.incrementa f.id (f.posicao+1)] := by
    rw [htr,meus_cons rfl,h.livre.eventos]
  refine ⟨⟨_,htr,by rw [hk]; rfl,fun d => by rw [hk]; rfl,Or.inr ⟨f.id,f.posicao,rfl,hp,?_,?_⟩,?_⟩,hm,?_⟩
  · rw [hk,Core.ponteiro_incrementa,if_pos rfl,hp]
    rfl
  · intro g hg
    rw [hk,Core.ponteiro_incrementa,if_neg hg]
  · rw [hm]
    exact .movida _ _
  · rw [hk]
    exact h.livre.mesa

/-- A desk write that completes what the request has done so far. -/
theorem associa (d : Mesa) {v : Option Nat} {l : List Evento} (hl : meus i x.trace=l)
    (hf : Forma x.core (.associa d.id v::l)) (t : ℚ) :
    Guarantee i x (x.associa i d v t) ∧ Feita i (x.associa i d v t) := by
  have hk := x.core_associa i d v t
  have hm : meus i (x.associa i d v t).trace=.associa d.id v::l := by
    rw [Obs.trace_associa,meus_cons rfl,hl]
  have hF : Forma (x.associa i d v t).core (meus i (x.associa i d v t).trace) := by
    rw [hm,hk]
    exact hf.congr (Core.vagas_ocupa _ _ _ _)
  have hn : ∀ f p,Evento.associa d.id v≠.incrementa f p := fun _ _ h => by cases h
  refine ⟨⟨.associa d.id v,rfl,by rw [hk]; rfl,?_,Or.inl ⟨hn,?_⟩,hF⟩,hF,?_⟩
  · intro d
    rw [hk,Core.isSome_mesa_ocupa]
  · intro f
    rw [hk]
    rfl
  · intro f p
    rw [hm]
    simp

def roteiro (i : ι) (m : Nat) : Roteiro i semCorrida (Rely i) (Guarantee i) m where
  livre := Livre i m
  carregada := Carregada i m
  pronta := Carregada i m
  movida := Movida i m
  olhada := fun f v x => Movida i m f x ∧ v.map Vaga.toVagaBase=x.core.vagaEm f.id (f.posicao+1)
  feita := Feita i
  refl := Rely.refl i
  firme_livre := firme Livre.stable (fun _ h => h.forma)
  firme_carregada := fun f => firme (Carregada.stable f) (fun _ h => h.livre.forma)
  firme_pronta := fun f => firme (Carregada.stable f) (fun _ h => h.livre.forma)
  firme_movida := fun f => firme (Movida.stable f) (fun _ h => h.forma)
  firme_olhada := fun f v => firme
    (fun x y hx h => ⟨Movida.stable f x y hx.1 h,by rw [vagaEm_of_rely h]; exact hx.2⟩)
    (fun _ h => h.1.forma)
  firme_feita := firme Feita.stable (fun _ h => h.forma)
  feita_of_livre := fun x h => ⟨h.forma,fun f p he => by rw [h.eventos] at he; cases he⟩
  livre_of_pronta := fun _ _ h => h.livre
  mesa_of_livre := fun _ h => h.mesa
  mesa_of_olhada := fun _ _ _ h => h.1.mesa
  carrega := by
    intro x hx f hf
    have hr : Rely i x (x.push i (fun _ => .carrega) id) :=
      Rely.quieto ⟨fun _ => rfl,fun _ => rfl⟩ i x
    refine ⟨Livre.stable x _ hx hr,by simp [carregou],fun _ => ?_⟩
    exact Core.ponteiro_of_mem (k := x.core) (List.mem_map.mpr ⟨f,hf,rfl⟩)
  conta := fun _ _ _ h _ => h
  incrementa := fun _ _ h hok => h.incrementa hok
  olha := fun _ _ _ h hv => ⟨h,hv⟩
  ocupa := by
    intro f v x d t _ h
    have hv : v.map (·.id)=(x.core.vagaEm f.id (f.posicao+1)).map (fun v => v.id) := by
      rw [← h.2,Option.map_map]
      rfl
    apply associa d h.1.eventos
    rw [hv]
    exact .feita _ _ _
  esvazia := fun _ d t _ h => associa d h.eventos (.vazia _) t

end Desks

/-- A call from an existing desk. -/
def Requisicao.DeMesa (d : Db) (r : Requisicao) : Prop :=
  ∃ s m c,s.mesa=some m ∧ (d.mesas.find m).isSome ∧
    (r=.filasProximo s c ∨ r=.colegiadosProximo s c)

namespace Desks

variable {ι : Type} [DecidableEq ι]

/-- A vaga the pointer has passed was moved to by somebody, who has put it on a desk if done. -/
theorem Inv.assento_of_passada {k₀ : Core} {x : Obs ι Evento World} (h : Inv k₀ x)
    (hu : k₀.PosicoesUnicas) (hend : ∀ i,Feita i x) {f : Nat} {a b p : Int} {v : VagaBase}
    (ha : k₀.ponteiro f=some a) (hb : x.core.ponteiro f=some b) (hv : v ∈ x.core.vagas.rows)
    (hvf : v.filaId=some f) (hvp : v.posicao=some p) (hlo : a<p) (hhi : p≤b) :
    v.id ∈ assentos x.trace := by
  have hc := h.contada f
  rw [ha,hb] at hc
  have hmov : p ∈ movimentos f x.trace := (hc.mem_iff.2 p).mpr ⟨hlo,hhi⟩
  obtain ⟨i,hi⟩ := mem_movimentos.mp hmov
  have hvaga : x.core.vagaEm f p=some v := by
    have hk : x.core.PosicoesUnicas := by
      unfold Core.PosicoesUnicas
      rw [h.vagas]
      exact hu
    exact hk.vagaEm hv hvf hvp
  have hmem : .incrementa f p ∈ meus i x.trace := mem_meus.mpr ⟨hi,rfl⟩
  obtain ⟨hform,hcomp⟩ := hend i
  generalize hl : meus i x.trace=l at *
  cases hform with
  | nada => cases hmem
  | movida g q => exact absurd rfl (hcomp g q)
  | vazia m => simp at hmem
  | feita m g q =>
    simp only [List.mem_cons,reduceCtorEq,Evento.incrementa.injEq,List.not_mem_nil,or_false,
      false_or] at hmem
    obtain ⟨rfl,rfl⟩ := hmem
    have hs : .associa m (some v.id) ∈ meus i x.trace := by simp [hl,hvaga]
    exact mem_assentos.mpr ⟨i,m,(mem_meus.mp hs).1⟩

theorem triple_prog {d : Db} {r : Requisicao} (hr : r.DeMesa d) (i : ι) :
    ∃ m,(d.mesas.find m).isSome ∧
      Prog.Triple i semCorrida (Rely i) (Guarantee i) (Livre i m) r.prog (fun _ => Feita i) := by
  obtain ⟨s,m,c,hs,hm,rfl | rfl⟩ := hr
  · exact ⟨m,hm,(roteiro i m).filasProximo (fun _ _ _ h => h) c hs⟩
  · exact ⟨m,hm,(roteiro i m).colegiadosProximo c hs⟩

/-- Along every schedule without races the invariant holds, and whoever has returned has answered
its pointer move. -/
theorem reach {s₀ : World} {rs : ι → Requisicao} (hr : ∀ i,(rs i).DeMesa s₀.db)
    {c : Config ι Evento World Erro Resposta}
    (h : Config.Reach semCorrida (Config.start s₀ (fun i => (rs i).prog)) c) :
    Inv s₀.db.core c.obs ∧ ∀ i,(c.pool i).returned → Feita i c.obs := by
  have hsafe : (Config.start s₀ (fun i => (rs i).prog)).AllSafe semCorrida Rely Guarantee
      (fun i _ => Feita i) := by
    intro i
    obtain ⟨m,hm,ht⟩ := triple_prog (hr i) i
    exact ht _ ⟨rfl,hm⟩
  have hinit : Inv s₀.db.core (Config.start s₀ (fun i => (rs i).prog)).obs :=
    ⟨rfl,fun _ => .start,fun _ => .nada,List.nodup_nil⟩
  obtain ⟨hall,hinv⟩ := hsafe.reach h (Inv s₀.db.core) hinit Rely.refl Rely.trans
    (fun i j hij x y hg => hg.rely hij) (fun i x y hx hg => hx.avanca hg)
  refine ⟨hinv,fun i hi => ?_⟩
  obtain ⟨_,hf⟩ := hall.returned Rely.refl hi
  exact hf

end Desks

/-- Concurrent calls. If no request moves the pointer of a fila between the load and the
`increment!` of another request on that fila, then no vaga is put on a desk twice, and once all
requests have returned every vaga the pointer passed has been put on a desk. -/
theorem proximo_semCorrida {ι : Type} [DecidableEq ι] {s₀ : World} {rs : ι → Requisicao}
    (hr : ∀ i,(rs i).DeMesa s₀.db) (hu : s₀.db.core.PosicoesUnicas)
    {c : Config ι Evento World Erro Resposta}
    (h : Config.Reach semCorrida (Config.start s₀ (fun i => (rs i).prog)) c) :
    (assentos c.obs.trace).Nodup ∧
    ((∀ i,(c.pool i).returned) → ∀ f ∈ s₀.db.filas.rows,∀ g ∈ c.obs.state.db.filas.rows,
      g.id=f.id → ∀ v ∈ c.obs.state.db.vagas.rows,v.filaId=some f.id → ∀ p ∈ v.posicao,
        f.posicao<p → p≤g.posicao → v.id ∈ assentos c.obs.trace) := by
  obtain ⟨hinv,hend⟩ := Desks.reach hr h
  refine ⟨hinv.unicos,?_⟩
  intro hret f hf g hg hid v hv hvf p hp hlo hhi
  have ha : s₀.db.core.ponteiro f.id=some f.posicao :=
    Core.ponteiro_of_mem (List.mem_map.mpr ⟨f,hf,rfl⟩)
  have hb : c.obs.core.ponteiro g.id=some g.posicao :=
    Core.ponteiro_of_mem (List.mem_map.mpr ⟨g,hg,rfl⟩)
  have hv' : v.toVagaBase ∈ c.obs.core.vagas.rows := List.mem_map.mpr ⟨v,hv,rfl⟩
  rw [hid] at hb
  exact hinv.assento_of_passada hu (fun i => hend i (hret i)) ha hb hv' hvf hp hlo hhi

namespace Desks

open Cenario

/-- Two alunos wait in fila 1. -/
def duas : World := (executa (world medida Table.empty) [inscreve "a",inscreve "b"]).2

/-- Desk 1 calls from the fila, desk 2 from its colegiado. -/
def duasMesas (b : Bool) : Requisicao :=
  if b then .filasProximo (mesa 1) 1 else .colegiadosProximo (mesa 2) 1

def inicio : Config Bool Evento World Erro Resposta :=
  Config.start duas (fun b => (duasMesas b).prog)

/-- Desk 2 loads after desk 1 has moved the pointer, and is done first. -/
def intercalada : Config Bool Evento World Erro Resposta :=
  inicio.fireAll (List.replicate 2 true++List.replicate 2 false++List.replicate 2 true++
    List.replicate 60 false++List.replicate 60 true)

/-- Desk 2 loads and calls between the load and the `increment!` of desk 1. -/
def corrida : Config Bool Evento World Erro Resposta :=
  inicio.fireAll (List.replicate 2 true++List.replicate 60 false++List.replicate 60 true)

theorem deMesa_duasMesas (b : Bool) : (duasMesas b).DeMesa duas.db := by
  cases b with
  | false => exact ⟨mesa 2,2,1,rfl,rfl,Or.inr rfl⟩
  | true => exact ⟨mesa 1,1,1,rfl,rfl,Or.inl rfl⟩

theorem posicoesUnicas_duas : duas.db.core.PosicoesUnicas := by decide +kernel

end Desks

theorem proximo_semCorrida_intercalada :
    assentos Desks.intercalada.obs.trace=[1,2] ∧ (assentos Desks.intercalada.obs.trace).Nodup := by
  have hc : Config.Reach semCorrida Desks.inicio Desks.intercalada :=
    Config.Reach.refl.fireAll _ (by decide +kernel)
  exact ⟨by decide +kernel,
    (proximo_semCorrida Desks.deMesa_duasMesas Desks.posicoesUnicas_duas hc).1⟩

/-- Both desks get vaga 1, the pointer moves by two, and nobody gets vaga 2. -/
theorem proximo_corrida :
    (∀ b,(Desks.duasMesas b).DeMesa Desks.duas.db) ∧
    Desks.duas.db.core.PosicoesUnicas ∧
    Config.Reach (fun _ _ _ => True) Desks.inicio Desks.corrida ∧
    (∀ b,(Desks.corrida.pool b).returned) ∧
    Desks.corrida.obs.state.db.filas.rows.map (fun f => f.posicao)=[2] ∧
    Desks.corrida.obs.state.db.mesas.rows.map (fun m => m.vagaId)=[some 1,some 1] ∧
    assentos Desks.corrida.obs.trace=[1,1] :=
  ⟨Desks.deMesa_duasMesas,Desks.posicoesUnicas_duas,Config.reach_fireAll _ _,by decide +kernel,
    by decide +kernel,by decide +kernel,by decide +kernel⟩

end Sisfila
