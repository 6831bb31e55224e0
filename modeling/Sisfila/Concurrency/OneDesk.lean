import Sisfila.Concurrency.Requests

namespace Sisfila

/-- An enrolment as one atomic step: `Vaga.create` with nothing in between. -/
def Vaga.createAtomica (a : Aluno) (f : Nat) : Req Unit :=
  .step (fun s => .cria a.id ((s.db.filaDe (some f)).map (fun f => f.id))
      ((s.db.filaDe (some f)).map (fun _ => s.db.vagas.next)))
    (fun s => ((Vaga.create a (some f)).exec s).state) (fun _ => .ret ())

/-- The calls of all requests so far, newest first. -/
def sinais {ι : Type} (tr : List (ι × Evento)) : List Evento :=
  (tr.map Prod.snd).filter Evento.atende

/-- Every pointer move was answered: the next thing that happened is that desk `m` got the vaga at
the new position. -/
def Core.Responde (k : Core) (m : Nat) : List Evento → Prop
  | [] => True
  | .associa _ none::es => k.Responde m es
  | .associa m' (some v)::.incrementa f p::es =>
    m'=m ∧ (k.vagaEm f p).map (fun w => w.id)=some v ∧ k.Responde m es
  | _ => False

namespace OneDesk

variable {ι : Type} {m : Nat}

/-- Answered, or in the middle of a call. -/
def EmDia (k : Core) (m : Nat) (es : List Evento) : Prop :=
  k.Responde m es ∨ ∃ f p es',es=.incrementa f p::es' ∧ k.Responde m es'

/-- What holds at every moment. -/
structure Inv (m : Nat) (x : Obs ι Evento World) : Prop where
  contigua : x.core.Contigua
  naLista : x.core.NaLista
  emDia : EmDia x.core m (sinais x.trace)

/-- What the desk may rely on: the others only enrol. -/
structure Cresce (x y : Obs ι Evento World) : Prop where
  filas : y.core.filas=x.core.filas
  mesas : y.core.mesas=x.core.mesas
  vagas : ∃ l,y.core.vagas.rows=x.core.vagas.rows++l
  contigua : x.core.Contigua → y.core.Contigua
  eventos : sinais y.trace=sinais x.trace

theorem Cresce.refl (x : Obs ι Evento World) : Cresce x x :=
  ⟨rfl,rfl,⟨[],by simp⟩,id,rfl⟩

theorem Cresce.trans (x y z : Obs ι Evento World) (h : Cresce x y) (h' : Cresce y z) :
    Cresce x z where
  filas := h'.filas.trans h.filas
  mesas := h'.mesas.trans h.mesas
  vagas := by
    obtain ⟨l,hl⟩ := h.vagas
    obtain ⟨l',hl'⟩ := h'.vagas
    exact ⟨l++l',by rw [hl',hl,List.append_assoc]⟩
  contigua := fun hx => h'.contigua (h.contigua hx)
  eventos := h'.eventos.trans h.eventos

variable {x y : Obs ι Evento World}

theorem Cresce.of_core (hk : y.core=x.core) (hs : sinais y.trace=sinais x.trace) : Cresce x y :=
  ⟨by rw [hk],by rw [hk],⟨[],by rw [hk,List.append_nil]⟩,by rw [hk]; exact id,hs⟩

theorem Cresce.of_insereVaga {a f : Nat} {t : ℚ}
    (hk : y.core=x.core.insereVaga a f (x.core.maiorPosicao f) t)
    (hs : sinais y.trace=sinais x.trace) : Cresce x y where
  filas := by rw [hk]; rfl
  mesas := by rw [hk]; rfl
  vagas := ⟨_,by rw [hk,Core.rows_insereVaga]⟩
  contigua := by
    rw [hk]
    exact fun h => h.insereVaga a f t
  eventos := hs

theorem Cresce.vagasDe (h : Cresce x y) (f : Nat) :
    ∃ l,y.core.vagasDe f=x.core.vagasDe f++l := by
  obtain ⟨l,hl⟩ := h.vagas
  exact ⟨_,by rw [Core.vagasDe,hl,List.filter_append]; rfl⟩

theorem Cresce.length_le (h : Cresce x y) (f : Nat) :
    (x.core.vagasDe f).length≤(y.core.vagasDe f).length := by
  obtain ⟨l,hl⟩ := h.vagasDe f
  rw [hl,List.length_append]
  exact Nat.le_add_right _ _

/-- A vaga once at a position stays the one found there. -/
theorem Cresce.vagaEm (h : Cresce x y) {f : Nat} {p : Int} {v : VagaBase}
    (hv : x.core.vagaEm f p=some v) : y.core.vagaEm f p=some v := by
  obtain ⟨l,hl⟩ := h.vagasDe f
  rw [Core.vagaEm] at *
  rw [hl,List.find?_append,hv]
  rfl

theorem Cresce.naLista (h : Cresce x y) (hx : x.core.NaLista) : y.core.NaLista := by
  intro f hf
  rw [h.filas] at hf
  have hb := hx f hf
  have hl := h.length_le f.id
  omega

theorem responde_mono {k k' : Core} (h : ∀ f p v,k.vagaEm f p=some v → k'.vagaEm f p=some v)
    {es : List Evento} (hx : k.Responde m es) : k'.Responde m es := by
  induction es using Core.Responde.induct with
  | case1 => trivial
  | case2 d es ih => exact ih hx
  | case3 d v f p es ih =>
    obtain ⟨hd,hv,hes⟩ := hx
    obtain ⟨w,hw,rfl⟩ := Option.map_eq_some_iff.mp hv
    exact ⟨hd,by rw [h f p w hw]; rfl,ih hes⟩
  | case4 es h₁ h₂ h₃ =>
    rw [Core.Responde] at hx
    · exact hx.elim
    all_goals assumption

theorem Cresce.responde (h : Cresce x y) {es : List Evento} (hx : x.core.Responde m es) :
    y.core.Responde m es := responde_mono (fun _ _ _ => h.vagaEm) hx

theorem Cresce.inv (h : Cresce x y) (hx : Inv m x) : Inv m y where
  contigua := h.contigua hx.contigua
  naLista := h.naLista hx.naLista
  emDia := by
    rw [h.eventos]
    rcases hx.emDia with hr | ⟨f,p,es,he,hr⟩
    · exact Or.inl (h.responde hr)
    · exact Or.inr ⟨f,p,es,he,h.responde hr⟩

theorem responde_of_vagas {k k' : Core} {es : List Evento} (h : k.Responde m es)
    (hv : k'.vagas=k.vagas) : k'.Responde m es := by
  apply responde_mono _ h
  intro f p v hw
  rw [Core.vagaEm,Core.vagasDe,hv]
  exact hw

/-- Between two calls of the desk. -/
structure Livre (m : Nat) (x : Obs ι Evento World) : Prop where
  contigua : x.core.Contigua
  naLista : x.core.NaLista
  responde : x.core.Responde m (sinais x.trace)
  mesa : (x.core.mesas.find m).isSome

/-- Fila `f` as loaded is as stored, and somebody waits in it. -/
structure Pronta (m : Nat) (f : Fila) (x : Obs ι Evento World) : Prop where
  livre : Livre m x
  atual : x.core.filas.find f.id=some f.toFilaBase
  menor : f.posicao<((x.core.vagasDe f.id).length : Int)

/-- After the pointer has moved, and before the desk is written. -/
structure Movida (m : Nat) (f : Fila) (x : Obs ι Evento World) : Prop where
  contigua : x.core.Contigua
  naLista : x.core.NaLista
  responde : ∃ es,sinais x.trace=.incrementa f.id (f.posicao+1)::es ∧ x.core.Responde m es
  mesa : (x.core.mesas.find m).isSome
  vaga : (x.core.vagaEm f.id (f.posicao+1)).isSome

theorem Livre.inv (h : Livre m x) : Inv m x := ⟨h.contigua,h.naLista,Or.inl h.responde⟩

theorem Movida.inv {f : Fila} (h : Movida m f x) : Inv m x := by
  obtain ⟨es,he,hr⟩ := h.responde
  exact ⟨h.contigua,h.naLista,Or.inr ⟨f.id,f.posicao+1,es,he,hr⟩⟩

theorem Livre.stable : Prog.Stable (Cresce : Obs ι Evento World → _ → Prop) (Livre m) := by
  intro x y hx h
  refine ⟨h.contigua hx.contigua,h.naLista hx.naLista,?_,by rw [h.mesas]; exact hx.mesa⟩
  rw [h.eventos]
  exact h.responde hx.responde

theorem Pronta.stable (f : Fila) :
    Prog.Stable (Cresce : Obs ι Evento World → _ → Prop) (Pronta m f) := by
  intro x y hx h
  have hl := h.length_le f.id
  have hp := hx.menor
  exact ⟨Livre.stable x y hx.livre h,by rw [h.filas]; exact hx.atual,by omega⟩

theorem Movida.stable (f : Fila) :
    Prog.Stable (Cresce : Obs ι Evento World → _ → Prop) (Movida m f) := by
  intro x y hx h
  obtain ⟨es,he,hr⟩ := hx.responde
  obtain ⟨w,hw⟩ := Option.isSome_iff_exists.mp hx.vaga
  refine ⟨h.contigua hx.contigua,h.naLista hx.naLista,?_,by rw [h.mesas]; exact hx.mesa,?_⟩
  · exact ⟨es,h.eventos.trans he,h.responde hr⟩
  · rw [h.vagaEm hw]
    rfl

theorem Cresce.quieto {l : World → Evento} {w : World → World} (h : Quieto l w) (i : ι)
    (x : Obs ι Evento World) : Cresce x (x.push i l w) := by
  have hk : (x.push i l w).core=x.core := h.2 x.state
  have ha := Evento.atende_of_marca (h.1 x.state)
  exact Cresce.of_core hk (by simp [sinais,ha])

/-- The desk only has to show that its assertions survive enrolments and imply `Inv`. -/
theorem firme {i : ι} {A : Obs ι Evento World → Prop} (hA : Prog.Stable Cresce A)
    (hI : ∀ x,A x → Inv m x) : Firme i Cresce (fun _ y => Inv m y) A :=
  Firme.of_stable (fun _ _ x hq => Cresce.quieto hq i x) hA
    (fun _ _ x hq hx => hI _ (hA _ _ hx (Cresce.quieto hq i x)))

/-- The pointer moves onto a vaga that is there. -/
theorem Pronta.incrementa {f : Fila} (h : Pronta m f x) (i : ι) :
    Movida m f (x.incrementa i f.id 1) := by
  have hm := (x.core.filas.find_eq_some_iff _ _).mp h.atual
  obtain ⟨h0,_⟩ := h.livre.naLista _ hm.1
  obtain ⟨n,hn⟩ : ∃ n : Nat,f.posicao=n := Int.eq_ofNat_of_zero_le h0
  have hv : (x.core.vagaEm f.id (f.posicao+1)).isSome := by
    have hp := h.menor
    rw [Core.vagaEm,hn,(h.livre.contigua f.id).find_eq n,
      List.getElem?_eq_getElem (by omega)]
    rfl
  have hk := x.core_incrementa i f.id 1
  refine ⟨?_,?_,⟨sinais x.trace,?_,?_⟩,?_,?_⟩
  · rw [hk]
    exact h.livre.contigua
  · rw [hk]
    exact h.livre.naLista.avanca h.atual h.menor
  · rw [Obs.trace_incrementa (f := f.toFilaBase) i 1 h.atual]
    rfl
  · rw [hk]
    exact responde_of_vagas h.livre.responde (Core.vagas_incrementa _ _ _)
  · rw [hk]
    exact h.livre.mesa
  · rw [hk]
    exact hv

/-- Writing the vaga of the new position answers the move. -/
theorem Movida.associa {f : Fila} (h : Movida m f x) {v : Option Vaga}
    (hv : v.map Vaga.toVagaBase=x.core.vagaEm f.id (f.posicao+1)) (i : ι) {d : Mesa} (hd : d.id=m)
    (t : ℚ) : Livre m (x.associa i d (v.map (·.id)) t) := by
  subst hd
  obtain ⟨es,he,hr⟩ := h.responde
  obtain ⟨b,hb⟩ := Option.isSome_iff_exists.mp h.vaga
  obtain ⟨w,rfl,rfl⟩ := Option.map_eq_some_iff.mp (hv.trans hb)
  refine ⟨h.contigua,h.naLista,?_,by rw [Obs.core_associa,Core.isSome_mesa_ocupa]; exact h.mesa⟩
  have hs : sinais (x.associa i d ((some w).map (·.id)) t).trace=
      .associa d.id (some w.id)::.incrementa f.id (f.posicao+1)::es := by
    rw [← he]
    rfl
  rw [hs,Obs.core_associa]
  exact ⟨rfl,congrArg (Option.map (fun b => b.id)) hb,responde_of_vagas hr (Core.vagas_ocupa _ _ _ _)⟩

/-- Emptying the desk answers no move and needs none. -/
theorem Livre.associa (h : Livre m x) (i : ι) {d : Mesa} (hd : d.id=m) (t : ℚ) :
    Livre m (x.associa i d none t) := by
  subst hd
  have hr : (x.core.ocupa d none t).Responde d.id (sinais x.trace) :=
    responde_of_vagas h.responde (Core.vagas_ocupa _ _ _ _)
  exact ⟨h.contigua,h.naLista,hr,by rw [Obs.core_associa,Core.isSome_mesa_ocupa]; exact h.mesa⟩

/-- The outline of the desk's calls. A count read earlier is at most the count there is now, so
whoever was found waiting still is. -/
def roteiro (i : ι) (m : Nat) :
    Roteiro i (fun _ _ _ => True) Cresce (fun _ y => Inv m y) m where
  livre := Livre m
  carregada := fun f x => Inv m x ∧ x.core.filas.find f.id=some f.toFilaBase
  pronta := Pronta m
  movida := Movida m
  olhada := fun f v x => Movida m f x ∧ v.map Vaga.toVagaBase=x.core.vagaEm f.id (f.posicao+1)
  feita := Livre m
  refl := Cresce.refl
  firme_livre := firme Livre.stable (fun _ h => h.inv)
  firme_carregada := fun f => firme
    (fun _ _ hx h => ⟨h.inv hx.1,by rw [h.filas]; exact hx.2⟩) (fun _ h => h.1)
  firme_pronta := fun f => firme (Pronta.stable f) (fun _ h => h.livre.inv)
  firme_movida := fun f => firme (Movida.stable f) (fun _ h => h.inv)
  firme_olhada := fun f v => firme
    (by
      intro x y hx h
      obtain ⟨b,hb⟩ := Option.isSome_iff_exists.mp hx.1.vaga
      exact ⟨Movida.stable f x y hx.1 h,by rw [hx.2,hb,h.vagaEm hb]⟩)
    (fun _ h => h.1.inv)
  firme_feita := firme Livre.stable (fun _ h => h.inv)
  feita_of_livre := fun _ h => h
  livre_of_pronta := fun _ _ h => h.livre
  mesa_of_livre := fun _ h => h.mesa
  mesa_of_olhada := fun _ _ _ h => h.1.mesa
  carrega := by
    intro x hx f hf
    have hc : Cresce x (x.push i (fun _ => .carrega) id) :=
      Cresce.quieto ⟨fun _ => rfl,fun _ => rfl⟩ i x
    refine ⟨hc.inv hx.inv,?_⟩
    exact (x.core.filas.find_eq_some_iff _ _).mpr ⟨List.mem_map.mpr ⟨f,hf,rfl⟩,rfl⟩
  conta := by
    intro f x hx hc hn
    rw [Db.contaVagas_core] at hn
    exact ⟨hx,hc.2,hn⟩
  incrementa := fun _ _ h _ => ⟨(h.incrementa i).inv,h.incrementa i⟩
  olha := fun _ _ _ h hv => ⟨h,hv⟩
  ocupa := fun _ _ _ _ t hd h => ⟨(h.1.associa h.2 i hd t).inv,h.1.associa h.2 i hd t⟩
  esvazia := fun _ _ t hd h => ⟨(h.associa i hd t).inv,h.associa i hd t⟩

/-- The desk's requests, one after another. -/
theorem triple_sucessivas (i : ι) {rs : List Requisicao}
    (hr : ∀ r ∈ rs,∃ s c,r=.colegiadosProximo s c ∧ s.mesa=some m) :
    Prog.Triple i (fun _ _ _ => True) Cresce (fun _ y => Inv m y) (Livre m)
      (Requisicao.sucessivas rs) (fun _ => Livre m) := by
  induction rs with
  | nil => exact Prog.Triple.ret Livre.stable (fun _ h => h)
  | cons r rs ih =>
    obtain ⟨s,c,rfl,hs⟩ := hr r List.mem_cons_self
    apply Prog.Triple.bind Cresce.refl ((roteiro i m).colegiadosProximo c hs)
    intro _
    exact ih (fun q hq => hr q (List.mem_cons_of_mem _ hq))

/-- An atomic enrolment only appends to a list. -/
theorem cresce_createAtomica (a : Aluno) (f : Nat) (j : ι) (x : Obs ι Evento World) :
    Cresce x (x.push j (fun s => .cria a.id ((s.db.filaDe (some f)).map (fun f => f.id))
        ((s.db.filaDe (some f)).map (fun _ => s.db.vagas.next)))
      (fun s => ((Vaga.create a (some f)).exec s).state)) := by
  have hk : ((Vaga.create a (some f)).exec x.state).state.db.core=x.core ∨
      ∃ g t,((Vaga.create a (some f)).exec x.state).state.db.core=
        x.core.insereVaga a.id g (x.core.maiorPosicao g) t := by
    unfold Vaga.create
    rw [Prog.exec_bind,exec_consulta,Outcome.andThen_ok]
    cases x.state.db.filaDe (some f) with
    | none => exact Or.inl rfl
    | some g =>
      refine Or.inr ⟨g.id,x.state.clock 0,?_⟩
      rw [Obs.core,Db.maiorPosicao_core]
      exact Db.core_insereVaga _ _ _ _ _
  rcases hk with hk | ⟨g,t,hk⟩
  · exact Cresce.of_core hk rfl
  · exact Cresce.of_insereVaga hk rfl

end OneDesk

/-- One desk's requests, and enrolments by everybody else. -/
def umaMesa {ι : Type} (rs : List Requisicao) (as : ι → Aluno × Nat) : Option ι → Req Unit
  | none => Requisicao.sucessivas rs
  | some j => Vaga.createAtomica (as j).1 (as j).2

namespace OneDesk

variable {ι : Type} {m : Nat}

/-- The desk relies on the others only enrolling; they rely on nothing. -/
def Rely : Option ι → Obs (Option ι) Evento World → Obs (Option ι) Evento World → Prop
  | none => Cresce
  | some _ => fun _ _ => True

def Guarantee (m : Nat) :
    Option ι → Obs (Option ι) Evento World → Obs (Option ι) Evento World → Prop
  | none => fun _ y => Inv m y
  | some _ => Cresce

def Fim (m : Nat) : Option ι → Unit → Obs (Option ι) Evento World → Prop
  | none => fun _ => Livre m
  | some _ => fun _ _ => True

theorem Rely.refl (i : Option ι) (x : Obs (Option ι) Evento World) : Rely i x x := by
  cases i with
  | none => exact Cresce.refl x
  | some j => trivial

theorem Rely.trans (i : Option ι) (x y z : Obs (Option ι) Evento World) (h : Rely i x y)
    (h' : Rely i y z) : Rely i x z := by
  cases i with
  | none => exact Cresce.trans x y z h h'
  | some j => trivial

theorem Guarantee.rely {i j : Option ι} (hij : i≠j) {x y : Obs (Option ι) Evento World}
    (h : Guarantee m i x y) : Rely j x y := by
  cases j with
  | some j => trivial
  | none =>
    cases i with
    | none => exact absurd rfl hij
    | some i => exact h

theorem Guarantee.inv {i : Option ι} {x y : Obs (Option ι) Evento World}
    (h : Guarantee m i x y) (hx : Inv m x) : Inv m y := by
  cases i with
  | none => exact h
  | some j => exact Cresce.inv h hx

/-- Every interleaving keeps the invariant, and leaves nothing unanswered once the desk is done. -/
theorem reach [DecidableEq ι] {s₀ : World} {rs : List Requisicao}
    (hr : ∀ r ∈ rs,∃ s c,r=.colegiadosProximo s c ∧ s.mesa=some m) (as : ι → Aluno × Nat)
    (h₀ : Livre m (Config.start s₀ (umaMesa rs as)).obs)
    {c : Config (Option ι) Evento World Erro Unit}
    (h : Config.Reach (fun _ _ _ => True) (Config.start s₀ (umaMesa rs as)) c) :
    Inv m c.obs ∧ ((c.pool none).returned → Livre m c.obs) := by
  have hsafe : (Config.start s₀ (umaMesa rs as)).AllSafe (fun _ _ _ => True) Rely (Guarantee m)
      (Fim m) := by
    intro i
    cases i with
    | none => exact triple_sucessivas none hr _ h₀
    | some j => exact fun y _ _ => ⟨cresce_createAtomica _ _ _ y,fun _ _ => trivial⟩
  obtain ⟨hall,hinv⟩ := hsafe.reach h (Inv m) h₀.inv Rely.refl Rely.trans
    (fun i j hij x y hg => hg.rely hij) (fun i x y hx hg => hg.inv hx)
  refine ⟨hinv,fun hd => ?_⟩
  obtain ⟨_,hl⟩ := hall.returned Rely.refl hd
  exact hl

end OneDesk

/-- With one calling desk nobody is lost to a race. However the statements of its requests
interleave with enrolments, no pointer ever passes the end of its list, and every move of a pointer
is followed by the desk getting the vaga at exactly the new position: at any moment at most the
newest move still waits for it, and none does once the desk is done. -/
theorem umaMesa_semPerda {ι : Type} [DecidableEq ι] {s₀ : World} {m : Nat}
    (hz : ∀ f ∈ s₀.db.filas.rows,f.posicao=0) (hv : s₀.db.vagas.rows=[])
    (hm : (s₀.db.mesas.find m).isSome) {rs : List Requisicao}
    (hr : ∀ r ∈ rs,∃ s c,r=.colegiadosProximo s c ∧ s.mesa=some m) (as : ι → Aluno × Nat)
    {c : Config (Option ι) Evento World Erro Unit}
    (h : Config.Reach (fun _ _ _ => True) (Config.start s₀ (umaMesa rs as)) c) :
    (∀ f ∈ c.obs.state.db.filas.rows,f.posicao≤(c.obs.state.db.contaVagas f.id : Int)) ∧
    (c.obs.core.Responde m (sinais c.obs.trace) ∨
      ∃ f p es,sinais c.obs.trace=.incrementa f p::es ∧ c.obs.core.Responde m es) ∧
    ((c.pool none).returned → c.obs.core.Responde m (sinais c.obs.trace)) := by
  have h₀ : OneDesk.Livre m (Config.start s₀ (umaMesa rs as)).obs :=
    ⟨Core.contigua_of_vazia (by simp [Config.start,Obs.core,hv]),Core.naLista_of_zero hz,
      trivial,hm⟩
  obtain ⟨hinv,hend⟩ := OneDesk.reach hr as h₀ h
  refine ⟨?_,hinv.emDia,fun hd => (hend hd).responde⟩
  intro f hf
  rw [Db.contaVagas_core]
  exact (hinv.naLista _ (List.mem_map.mpr ⟨f,hf,rfl⟩)).2

open Cenario in
/-- One aluno enrols before the desk's first request, another while it is between its two counts. -/
def OneDesk.corrida : Config (Option Bool) Evento World Erro Unit :=
  (Config.start (world medida Table.empty)
    (umaMesa [.colegiadosProximo (mesa 1) 1,.colegiadosProximo (mesa 1) 1]
      (fun b => if b then (aluno 1 "a",1) else (aluno 2 "b",1)))).fireAll
    (some true::List.replicate 4 none++some false::List.replicate 80 none)

open Cenario in
theorem umaMesa_semPerda_corrida :
    sinais OneDesk.corrida.obs.trace=
      [.associa 1 (some 2),.incrementa 1 2,.associa 1 (some 1),.incrementa 1 1] ∧
    (OneDesk.corrida.pool none).returned ∧
    ∀ f ∈ OneDesk.corrida.obs.state.db.filas.rows,
      f.posicao≤(OneDesk.corrida.obs.state.db.contaVagas f.id : Int) := by
  have hr : ∀ r ∈ [.colegiadosProximo (mesa 1) 1,.colegiadosProximo (mesa 1) 1],
      ∃ s c,r=Requisicao.colegiadosProximo s c ∧ s.mesa=some 1 := by
    intro r hr
    simp only [List.mem_cons,List.not_mem_nil,or_false,or_self] at hr
    exact ⟨mesa 1,1,hr,rfl⟩
  have hz : ∀ f ∈ (world medida Table.empty).db.filas.rows,f.posicao=0 := by
    intro f hf
    simp only [world,db,medida,List.mem_singleton] at hf
    rw [hf]
  have hc : Config.Reach (fun _ _ _ => True) _ OneDesk.corrida := Config.reach_fireAll _ _
  have hend := umaMesa_semPerda hz rfl rfl hr _ hc
  exact ⟨by decide +kernel,by decide +kernel,hend.1⟩

end Sisfila
