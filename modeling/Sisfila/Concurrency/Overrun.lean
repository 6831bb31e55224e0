import Sisfila.Concurrency.Desks
import Sisfila.Framework.Runs
import Sisfila.Framework.StaleReads

namespace Sisfila

/-- A client's requests, one after another. An exception ends the request, not the client. -/
def Requisicao.seguidas : List Requisicao → Req Unit
  | [] => pure ()
  | r::rs => r.prog.anyway (seguidas rs)

namespace Excesso

section escritas

variable {ι : Type} {x : Obs ι Evento World}

/-- A statement of client `i` that moves no pointer. -/
structure Fica (i : ι) (x y : Obs ι Evento World) : Prop where
  evento : ∃ e,(∀ g p,e≠.incrementa g p) ∧ y.trace=(i,e)::x.trace
  ponteiro : y.core.ponteiro=x.core.ponteiro
  vagas : ∀ f,(x.core.vagasDe f).length≤(y.core.vagasDe f).length
  mesas : ∀ m,(x.core.mesas.find m).isSome → (y.core.mesas.find m).isSome

/-- Statements the core does not show. -/
theorem Fica.quieto {l : World → Evento} {w : World → World} (h : Quieto l w) (i : ι)
    (x : Obs ι Evento World) : Fica i x (x.push i l w) := by
  have hk : (x.push i l w).core=x.core := h.2 x.state
  refine ⟨⟨l x.state,?_,rfl⟩,by rw [hk],fun f => by rw [hk],fun m hm => by rw [hk]; exact hm⟩
  intro g p he
  have hm := h.1 x.state
  rw [he] at hm
  cases hm

theorem Fica.associa (x : Obs ι Evento World) (i : ι) (m : Mesa) (v : Option Nat) (t : ℚ) :
    Fica i x (x.associa i m v t) := by
  refine ⟨⟨_,by simp,x.trace_associa i m v t⟩,?_,fun f => ?_,fun d hd => ?_⟩
  · rw [Obs.core_associa]
    rfl
  · rw [Obs.core_associa]
    exact le_rfl
  · rw [Obs.core_associa,Core.isSome_mesa_ocupa]
    exact hd

/-- The pointer of an existing fila, after a move. -/
theorem ponteiro_incrementa {v : Int} (i : ι) (f g : Nat) (hv : x.core.ponteiro g=some v) :
    (x.incrementa i f 1).core.ponteiro g=some (if g=f then v+1 else v) := by
  rw [Obs.core_incrementa,Core.ponteiro_incrementa,hv]
  split_ifs <;> rfl

theorem trace_incrementa (x : Obs ι Evento World) (i : ι) (f : Nat) :
    ∃ p,(x.incrementa i f 1).trace=(i,.incrementa f p)::x.trace := ⟨_,rfl⟩

theorem Fica.insereVaga {i : ι} (a f fundo : Nat) (t : ℚ) (v : World → Option Nat) :
    Fica i x (x.push i (fun s => .cria a (some f) (v s))
      (fun s => { s with db := s.db.insereVaga a (some f) fundo t })) := by
  have hk : (x.push i (fun s => Evento.cria a (some f) (v s))
      (fun s => { s with db := s.db.insereVaga a (some f) fundo t })).core=
      x.core.insereVaga a f fundo t := Db.core_insereVaga _ _ _ _ _
  refine ⟨⟨_,by simp,rfl⟩,by rw [hk]; rfl,fun g => ?_,fun m hm => by rw [hk]; exact hm⟩
  rw [hk,Core.vagasDe_insereVaga]
  split_ifs
  · rw [List.length_append]
    exact Nat.le_add_right _ _
  · exact le_rfl

end escritas

section leituras

variable {ι : Type} [DecidableEq ι]

/-- The moves of fila `f` since client `i` loaded the filas for the first time after its own last
move. -/
def atraso (i : ι) (f : Nat) : List (ι × Evento) → Option Nat
  | [] => none
  | (j,.carrega)::tr => if j=i then some ((atraso i f tr).getD 0) else atraso i f tr
  | (j,.incrementa g _)::tr =>
    if j=i then none else if g=f then (atraso i f tr).map (· + 1) else atraso i f tr
  | _::tr => atraso i f tr

/-- The oldest position of fila `f` that client `i` may still act upon. -/
def lida (i : ι) (f : Nat) (x : Obs ι Evento World) : Option Int :=
  (atraso i f x.trace).map (fun k : Nat => (x.core.ponteiro f).getD 0-k)

variable {i j : ι} {f : Nat} {x y : Obs ι Evento World} {e : Evento} {tr : List (ι × Evento)}

/-- Of the others only the moves count. -/
theorem atraso_cons_ne (hj : j≠i) (he : ∀ g p,e≠.incrementa g p) :
    atraso i f ((j,e)::tr)=atraso i f tr := by
  cases e with
  | incrementa g p => exact absurd rfl (he g p)
  | carrega => rw [atraso,if_neg hj]
  | _ => rfl

/-- A client that has loaded its filas keeps the reading until it moves a pointer. -/
theorem atraso_cons_some (he : ∀ g p,e≠.incrementa g p) {k : Nat} (hk : atraso i f tr=some k) :
    atraso i f ((j,e)::tr)=some k := by
  cases e with
  | incrementa g p => exact absurd rfl (he g p)
  | carrega =>
    rw [atraso,hk]
    split_ifs <;> rfl
  | _ => exact hk

/-- A client without a reading gets one by loading, of the position as it is. -/
theorem atraso_cons_none (he : ∀ g p,e≠.incrementa g p) (hk : atraso i f tr=none) {k : Nat}
    (h : atraso i f ((j,e)::tr)=some k) : k=0 := by
  cases e with
  | incrementa g p => exact absurd rfl (he g p)
  | carrega =>
    rw [atraso,hk] at h
    split_ifs at h
    exact (Option.some.inj h).symm
  | _ =>
    rw [show atraso i f ((j,_)::tr)=atraso i f tr from rfl,hk] at h
    cases h

/-- A statement of a calling client: a pointer moves only if the client has read a position of it
that is short of the end of the list. -/
inductive Avanca (i : ι) (x : Obs ι Evento World) : Obs ι Evento World → Prop
  | fica {y : Obs ι Evento World} (h : Fica i x y) : Avanca i x y
  | move (f : Nat) (p : Int) (hf : (x.core.ponteiro f).isSome) (hl : lida i f x=some p)
      (hp : p<((x.core.vagasDe f).length : Int)) : Avanca i x (x.incrementa i f 1)

/-- What client `i` relies on: its readings are its own, no list gets shorter, and no fila and no
desk goes away. -/
structure Alheio (i : ι) (x y : Obs ι Evento World) : Prop where
  lida : ∀ f,(x.core.ponteiro f).isSome → lida i f y=lida i f x
  vagas : ∀ f,(x.core.vagasDe f).length≤(y.core.vagasDe f).length
  filas : ∀ f,(x.core.ponteiro f).isSome → (y.core.ponteiro f).isSome
  mesas : ∀ m,(x.core.mesas.find m).isSome → (y.core.mesas.find m).isSome

theorem Alheio.refl (i : ι) (x : Obs ι Evento World) : Alheio i x x :=
  ⟨fun _ _ => rfl,fun _ => le_rfl,fun _ => id,fun _ => id⟩

theorem Alheio.trans (i : ι) (x y z : Obs ι Evento World) (h : Alheio i x y)
    (h' : Alheio i y z) : Alheio i x z where
  lida f hf := (h'.lida f (h.filas f hf)).trans (h.lida f hf)
  vagas f := (h.vagas f).trans (h'.vagas f)
  filas f hf := h'.filas f (h.filas f hf)
  mesas m hm := h'.mesas m (h.mesas m hm)

theorem Fica.alheio (h : Fica i x y) (hij : i≠j) : Alheio j x y := by
  obtain ⟨e,he,ht⟩ := h.evento
  refine ⟨fun f _ => ?_,h.vagas,fun f hf => by rw [h.ponteiro]; exact hf,h.mesas⟩
  rw [lida,lida,ht,atraso_cons_ne hij he,h.ponteiro]

/-- The move of another client shows in the position and in the delay alike. -/
theorem lida_incrementa_ne (hij : i≠j) (g : Nat) (hg : (x.core.ponteiro g).isSome) :
    lida j g (x.incrementa i f 1)=lida j g x := by
  obtain ⟨v,hv⟩ := Option.isSome_iff_exists.mp hg
  obtain ⟨p,hp⟩ := trace_incrementa x i f
  rw [lida,lida,hp,atraso,if_neg hij,ponteiro_incrementa i f g hv,hv,Option.getD_some,
    Option.getD_some]
  by_cases hgf : g=f
  · subst hgf
    rw [if_pos rfl,if_pos rfl,Option.map_map]
    refine congrArg (fun h => Option.map h _) (funext fun k => ?_)
    simp only [Function.comp_apply]
    omega
  · rw [if_neg hgf,if_neg (Ne.symm hgf)]

/-- Whoever moves a pointer has no reading left. -/
theorem lida_incrementa_self (x : Obs ι Evento World) (i : ι) (f g : Nat) :
    lida i g (x.incrementa i f 1)=none := by
  obtain ⟨p,hp⟩ := trace_incrementa x i f
  rw [lida,hp,atraso,if_pos rfl,Option.map_none]

theorem Avanca.alheio (h : Avanca i x y) (hij : i≠j) : Alheio j x y := by
  cases h with
  | fica h => exact h.alheio hij
  | move f p hf hl hp =>
    refine ⟨fun g => lida_incrementa_ne hij g,fun g => ?_,fun g hg => ?_,fun m hm => ?_⟩
    · rw [Obs.core_incrementa]
      exact le_rfl
    · obtain ⟨v,hv⟩ := Option.isSome_iff_exists.mp hg
      rw [ponteiro_incrementa i f g hv]
      rfl
    · rw [Obs.core_incrementa]
      exact hm

theorem Avanca.mesas (h : Avanca i x y) {m : Nat} (hm : (x.core.mesas.find m).isSome) :
    (y.core.mesas.find m).isSome := by
  cases h with
  | fica h => exact h.mesas m hm
  | move f p hf hl hp =>
    rw [Obs.core_incrementa]
    exact hm

end leituras

section mesas

variable {ι : Type} [DecidableEq ι] {i : ι} {m : Nat} {x y : Obs ι Evento World}

/-- The desk is there. -/
def Livre (m : Nat) (x : Obs ι Evento World) : Prop := (x.core.mesas.find m).isSome

/-- Client `i` has loaded fila `f`, from no older a position than it is still held to. -/
def Carregada (i : ι) (m : Nat) (f : Fila) (x : Obs ι Evento World) : Prop :=
  Livre m x ∧ (x.core.ponteiro f.id).isSome ∧ ∃ p,lida i f.id x=some p ∧ p≤f.posicao

def Pronta (i : ι) (m : Nat) (f : Fila) (x : Obs ι Evento World) : Prop :=
  Carregada i m f x ∧ f.posicao<((x.core.vagasDe f.id).length : Int)

theorem Livre.stable : Prog.Stable (Alheio i) (Livre m) := fun _ _ hx h => h.mesas m hx

theorem Carregada.stable (f : Fila) : Prog.Stable (Alheio i) (Carregada i m f) := by
  rintro x y ⟨hm,hf,p,hp,hle⟩ h
  exact ⟨h.mesas m hm,h.filas _ hf,p,by rw [h.lida _ hf,hp],hle⟩

theorem Pronta.stable (f : Fila) : Prog.Stable (Alheio i) (Pronta i m f) := by
  rintro x y ⟨hc,hp⟩ h
  have hv := h.vagas f.id
  exact ⟨Carregada.stable f x y hc h,by omega⟩

theorem Carregada.quieta {f : Fila} (hx : Carregada i m f x) {l : World → Evento}
    {w : World → World} (h : Quieto l w) : Carregada i m f (x.push i l w) := by
  obtain ⟨hm,hf,p,hp,hle⟩ := hx
  have hq := Fica.quieto h i x
  obtain ⟨e,he,ht⟩ := hq.evento
  refine ⟨hq.mesas m hm,by rw [hq.ponteiro]; exact hf,p,?_,hle⟩
  obtain ⟨k,hk,hpk⟩ := Option.map_eq_some_iff.mp hp
  rw [lida,ht,atraso_cons_some he hk,hq.ponteiro,Option.map_some,hpk]

theorem firme_livre : Firme i (Alheio i) (Avanca i) (Livre m) where
  stable := Livre.stable
  quieta _ _ x h hx := ⟨.fica (Fica.quieto h i x),(Fica.quieto h i x).mesas m hx⟩

theorem firme_carregada (f : Fila) : Firme i (Alheio i) (Avanca i) (Carregada i m f) where
  stable := Carregada.stable f
  quieta _ _ x h hx := ⟨.fica (Fica.quieto h i x),hx.quieta h⟩

theorem firme_pronta (f : Fila) : Firme i (Alheio i) (Avanca i) (Pronta i m f) where
  stable := Pronta.stable f
  quieta _ _ x h hx := by
    have hv := (Fica.quieto h i x).vagas f.id
    have hp := hx.2
    exact ⟨.fica (Fica.quieto h i x),hx.1.quieta h,by omega⟩

/-- The load of a client is a reading of every fila, or leaves it with the older one. -/
theorem carrega (hx : Livre m x) {f : Fila} (hf : f ∈ x.state.db.filas.rows) :
    Carregada i m f (x.push i (fun _ => .carrega) id) := by
  have hpos : x.core.ponteiro f.id=some f.posicao :=
    Core.ponteiro_of_mem (List.mem_map.mpr ⟨f,hf,rfl⟩)
  refine ⟨hx,Option.isSome_of_eq_some hpos,f.posicao-((atraso i f.id x.trace).getD 0 : Nat),?_,
    by omega⟩
  rw [lida,Obs.push_trace,atraso,if_pos rfl,Option.map_some]
  exact congrArg (fun o : Option Int => some (o.getD 0-_)) hpos

/-- The outline of a call: what was counted only grows, so the position read stays short of the end
until the client moves the pointer. -/
def roteiro (i : ι) (m : Nat) : Roteiro i (fun _ _ _ => True) (Alheio i) (Avanca i) m where
  livre := Livre m
  carregada := Carregada i m
  pronta := Pronta i m
  movida _ := Livre m
  olhada _ _ := Livre m
  feita := Livre m
  refl := Alheio.refl i
  firme_livre := firme_livre
  firme_carregada := firme_carregada
  firme_pronta := firme_pronta
  firme_movida _ := firme_livre
  firme_olhada _ _ := firme_livre
  firme_feita := firme_livre
  feita_of_livre _ h := h
  livre_of_pronta _ _ h := h.1.1
  mesa_of_livre _ h := h
  mesa_of_olhada _ _ _ h := h
  carrega _ hx _ hf := carrega hx hf
  conta f x _ hc hn := by
    rw [Db.contaVagas_core] at hn
    exact ⟨hc,hn⟩
  incrementa f x hx _ := by
    obtain ⟨⟨hm,hf,p,hp,hle⟩,hlt⟩ := hx
    have hg : Avanca i x (x.incrementa i f.id 1) := .move f.id p hf hp (by omega)
    exact ⟨hg,hg.mesas hm⟩
  olha _ _ _ h _ := h
  ocupa _ _ x d t _ h := ⟨.fica (Fica.associa x i d _ t),(Fica.associa x i d _ t).mesas m h⟩
  esvazia x d t _ h := ⟨.fica (Fica.associa x i d _ t),(Fica.associa x i d _ t).mesas m h⟩

/-- A calling client keeps to its guarantee however its requests end. -/
theorem segue_chamadas {rs : List Requisicao}
    (hr : ∀ r ∈ rs,∃ s c,r=.colegiadosProximo s c ∧ s.mesa=some m) :
    Prog.Triple i (fun _ _ _ => True) (Alheio i) (Avanca i) (Livre m) (Requisicao.seguidas rs)
      (fun _ _ => True) := by
  induction rs with
  | nil => exact fun _ _ _ _ => trivial
  | cons r rs ih =>
    obtain ⟨s,c,rfl,hs⟩ := hr r List.mem_cons_self
    intro x hx
    have hp : (ColegiadosController.proximo s c).Safe i (fun _ _ _ => True) (Alheio i) (Avanca i)
        (fun _ _ => True) x :=
      ((roteiro i m).colegiadosProximo c hs x hx).mono (fun _ _ _ => trivial)
    exact hp.anyway hx Livre.stable (fun _ _ hx hg => hg.mesas hx)
      (ih (fun q hq => hr q (List.mem_cons_of_mem _ hq)))

/-! Enrolments only make lists longer. -/

theorem segue_quieto {α : Type} {p : Req α} (hp : p.Every Quieto) :
    Prog.Triple i (fun _ _ _ => True) (Alheio i) (Fica i) (fun _ => True) p (fun _ _ => True) :=
  Prog.Triple.of_every hp (fun _ _ h _ => h) (fun _ _ x h _ => ⟨Fica.quieto h i x,trivial⟩)

theorem segue_create (a : Aluno) (f : Option Nat) :
    Prog.Triple i (fun _ _ _ => True) (Alheio i) (Fica i) (fun _ => True) (Vaga.create a f)
      (fun _ _ => True) :=
  Vaga.triple_create (Alheio.refl i) (segue_quieto (every_consulta _))
    (segue_quieto (every_le (fun _ => rfl) _)) (fun _ => segue_quieto (every_consulta _))
    (fun _ _ => segue_quieto every_timeNow)
    (fun g n t => Prog.Triple.step (fun _ _ h _ => h) (fun _ _ _ h _ => h)
      (fun _ _ _ => ⟨Fica.insereVaga a.id g.id n t _,trivial⟩))
    (fun _ _ _ h _ => h)

/-- Nothing has to be remembered. -/
def inscricao (i : ι) : Inscricao i (fun _ _ _ => True) (Alheio i) (Fica i) where
  inicio _ := True
  achado _ _ := True
  escolhida _ _ _ := True
  liberada _ _ _ := True
  respondida _ _ := True
  refl := Alheio.refl i
  consulta x := Fica.quieto ⟨fun _ => rfl,fun _ => rfl⟩ i x
  inicio_consulta _ h := h
  achado_consulta _ _ h := h
  stable_inicio _ _ h _ := h
  stable_achado _ _ _ h _ := h
  stable_escolhida _ _ _ _ h _ := h
  stable_respondida _ _ _ h _ := h
  acha _ _ _ _ := trivial
  escolhe _ _ _ _ _ := trivial
  procura a _ := (segue_quieto a.every_proximaVaga).conseq (fun _ h => h) (fun _ _ h _ => h)
  nega _ _ _ := trivial
  cria a g := segue_create a g.filaId

theorem segue_inscricoes {rs : List Requisicao} (hr : ∀ r ∈ rs,r.acao=.inscrever) :
    Prog.Triple i (fun _ _ _ => True) (Alheio i) (Fica i) (fun _ => True)
      (Requisicao.seguidas rs) (fun _ _ => True) := by
  induction rs with
  | nil => exact fun _ _ _ _ => trivial
  | cons r rs ih =>
    have hp : Prog.Triple i (fun _ _ _ => True) (Alheio i) (Fica i) (fun _ => True) r.prog
        (fun _ _ => True) := by
      cases r with
      | inscrever s m => exact (inscricao i).inscrever s m
      | _ => exact absurd (hr _ List.mem_cons_self) (by simp [Requisicao.acao])
    intro x hx
    exact (hp x hx).anyway hx (fun _ _ h _ => h) (fun _ _ h _ => h)
      (ih (fun q hq => hr q (List.mem_cons_of_mem _ hq)))

end mesas

section sistema

variable {δ ι : Type} [DecidableEq δ] [DecidableEq ι] {x y : Obs (δ ⊕ ι) Evento World} {i : δ ⊕ ι}

def Guarantee : δ ⊕ ι → Obs (δ ⊕ ι) Evento World → Obs (δ ⊕ ι) Evento World → Prop
  | .inl d => Avanca (.inl d)
  | .inr j => Fica (.inr j)

theorem Guarantee.alheio {j : δ ⊕ ι} (hij : i≠j) (h : Guarantee i x y) : Alheio j x y := by
  cases i with
  | inl d => exact Avanca.alheio h hij
  | inr k => exact Fica.alheio h hij

variable [Fintype δ]

/-- The bound, with the readings that stand behind it. -/
def Inv (x : Obs (δ ⊕ ι) Evento World) : Prop :=
  ∀ f v,x.core.ponteiro f=some v →
    Overrun v ((x.core.vagasDe f).length : Int) (fun d : δ => lida (Sum.inl d) f x)

theorem Inv.fica (hx : Inv x) (h : Fica i x y) : Inv y := by
  intro f v hv
  obtain ⟨e,he,ht⟩ := h.evento
  rw [h.ponteiro] at hv
  have hl := h.vagas f
  refine ((hx f v hv).limit (by omega)).reread (fun d p hp hlt => ?_)
  rw [lida,ht,h.ponteiro,hv,Option.getD_some] at hp
  obtain ⟨k,hk,hpk⟩ := Option.map_eq_some_iff.mp hp
  cases ha : atraso (Sum.inl d) f x.trace with
  | none =>
    -- a reading taken just now is not below the pointer
    obtain rfl := atraso_cons_none he ha hk
    omega
  | some n =>
    rw [atraso_cons_some he ha] at hk
    rw [lida,ha,hv,hk]
    exact congrArg some hpk

theorem Inv.move (hx : Inv x) {d : δ} {f : Nat} {p : Int} (hl : lida (Sum.inl d) f x=some p)
    (hp : p<((x.core.vagasDe f).length : Int)) : Inv (x.incrementa (.inl d) f 1) := by
  intro g w hw
  have hg : (x.core.ponteiro g).isSome := by
    rw [Obs.core_incrementa,Core.ponteiro_incrementa] at hw
    cases hv : x.core.ponteiro g with
    | some v => rfl
    | none =>
      rw [hv] at hw
      split_ifs at hw
      cases hw
  obtain ⟨v,hv⟩ := Option.isSome_iff_exists.mp hg
  rw [ponteiro_incrementa _ f g hv] at hw
  obtain rfl := Option.some.inj hw
  have hs : ∀ e q,lida (Sum.inl e) g (x.incrementa (.inl d) f 1)=some q →
      lida (Sum.inl e) g x=some q := by
    intro e q hq
    by_cases he : e=d
    · rw [he,lida_incrementa_self] at hq
      cases hq
    · rw [lida_incrementa_ne (by simpa using Ne.symm he) g hg] at hq
      exact hq
  have hvagas : (x.incrementa (.inl d) f 1).core.vagasDe g=x.core.vagasDe g := by
    rw [Obs.core_incrementa]
    rfl
  rw [hvagas]
  split_ifs with hgf
  · subst hgf
    exact (hx g v hv).advance hl hp (lida_incrementa_self _ _ _ _) hs
  · exact (hx g v hv).reread (fun e q hq _ => hs e q hq)

theorem Guarantee.inv (h : Guarantee i x y) (hx : Inv x) : Inv y := by
  cases i with
  | inr j => exact hx.fica h
  | inl d =>
    cases h with
    | fica h => exact hx.fica h
    | move f p hf hl hp => exact hx.move hl hp

end sistema

end Excesso

/-- How far a race can push a pointer. Clients call at desks, each any number of requests one after
another, while others enrol; however their statements interleave, and whichever requests fail, at
no moment does a pointer stand as far past the end of its list as there are calling clients. -/
theorem ponteiro_excesso {δ ι : Type} [DecidableEq δ] [DecidableEq ι] [Fintype δ] {s₀ : World}
    (mesa : δ → Nat) (hm : ∀ d,(s₀.db.mesas.find (mesa d)).isSome)
    (chamadas : δ → List Requisicao)
    (hc : ∀ d,∀ r ∈ chamadas d,∃ s c,r=.colegiadosProximo s c ∧ s.mesa=some (mesa d))
    (inscricoes : ι → List Requisicao) (hi : ∀ j,∀ r ∈ inscricoes j,r.acao=.inscrever)
    (h₀ : ∀ f ∈ s₀.db.filas.rows,f.posicao<(s₀.db.contaVagas f.id : Int)+(Fintype.card δ : Int))
    {c : Config (δ ⊕ ι) Evento World Erro Unit}
    (h : Config.Reach (fun _ _ _ => True) (Config.start s₀ (fun i => Requisicao.seguidas
      (Sum.elim chamadas inscricoes i))) c) :
    ∀ f ∈ c.obs.state.db.filas.rows,
      f.posicao<(c.obs.state.db.contaVagas f.id : Int)+(Fintype.card δ : Int) := by
  have hsafe : (Config.start s₀ (fun i => Requisicao.seguidas
      (Sum.elim chamadas inscricoes i))).AllSafe (fun _ _ _ => True) Excesso.Alheio
      Excesso.Guarantee (fun _ _ _ => True) := by
    intro i
    cases i with
    | inl d => exact Excesso.segue_chamadas (hc d) _ (hm d)
    | inr j => exact Excesso.segue_inscricoes (hi j) _ trivial
  have hinit : Excesso.Inv (Config.start s₀ (fun i => Requisicao.seguidas
      (Sum.elim chamadas inscricoes i)) : Config (δ ⊕ ι) Evento World Erro Unit).obs := by
    intro f v hv
    refine Overrun.start ?_ (fun _ => rfl)
    obtain ⟨g,hg,rfl⟩ := Option.map_eq_some_iff.mp hv
    obtain rfl : g.id=f := Table.key_of_find hg
    obtain ⟨w,hw,rfl⟩ := List.mem_map.mp (Table.mem_of_find hg)
    have hb := h₀ w hw
    rw [Db.contaVagas_core] at hb
    exact hb
  obtain ⟨_,hinv⟩ := hsafe.reach h Excesso.Inv hinit Excesso.Alheio.refl Excesso.Alheio.trans
    (fun i j hij x y hg => hg.alheio hij) (fun i x y hx hg => hg.inv hx)
  intro f hf
  rw [Db.contaVagas_core]
  exact (hinv f.id f.posicao (Core.ponteiro_of_mem (List.mem_map.mpr ⟨f,hf,rfl⟩))).lt_add_card

namespace Excesso

open Cenario

/-- One aluno waits. -/
def umEspera : World := runAll Requisicao.prog (world medida Table.empty) [inscreve "a"]

/-- Two desks call twice each, while the aluno asks to enrol again. -/
def duasMesas : Bool ⊕ Unit → List Requisicao :=
  Sum.elim (fun b => List.replicate 2 (.colegiadosProximo (mesa (if b then 1 else 2)) 1))
    (fun _ => [inscreve "a"])

/-- Desk 2 makes both calls after desk 1 has loaded the fila. -/
def corrida : Config (Bool ⊕ Unit) Evento World Erro Unit :=
  (Config.start umEspera (fun i => Requisicao.seguidas (duasMesas i))).fireAll
    (List.replicate 4 (.inl true)++List.replicate 90 (.inl false)++List.replicate 30 (.inr ())++
      List.replicate 90 (.inl true))

theorem corrida_reach : Config.Reach (fun _ _ _ => True)
    (Config.start umEspera (fun i => Requisicao.seguidas (duasMesas i))) corrida :=
  Config.reach_fireAll _ _

end Excesso

/-- Two desks, one waiting aluno: the pointer ends one past the end of the list. -/
theorem ponteiro_excesso_corrida :
    Excesso.corrida.obs.state.db.filas.rows.map
      (fun f => (f.posicao,Excesso.corrida.obs.state.db.contaVagas f.id))=[(2,1)] ∧
    (∀ b,(Excesso.corrida.pool (.inl b)).returned) ∧
    ∀ f ∈ Excesso.corrida.obs.state.db.filas.rows,
      f.posicao<(Excesso.corrida.obs.state.db.contaVagas f.id : Int)+(Fintype.card Bool : Int) := by
  refine ⟨by decide +kernel,by decide +kernel,?_⟩
  refine ponteiro_excesso (fun b => if b then 1 else 2) (by decide +kernel) _ ?_ _ ?_
    (by decide +kernel) Excesso.corrida_reach
  · intro b r hr
    exact ⟨_,1,List.eq_of_mem_replicate hr,rfl⟩
  · intro _ r hr
    rw [List.mem_singleton.mp hr]
    rfl

end Sisfila
