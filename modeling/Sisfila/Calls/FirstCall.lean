import Sisfila.Calls.Atomicity
import Sisfila.Queue.Enrolment

namespace Sisfila

/-- No fila has been called yet, and none has an attendance time. -/
def SemChamadas (d : Db) : Prop :=
  ∀ f ∈ d.filas.rows,f.posicao=0 ∧ f.tempoatendimento=none

/-- An enrolment never touches the filas. -/
theorem filas_inscrever (u : Sessao) (m : Option String) (s : World) :
    ((TelaController.inscrever u m).exec s).state.db.filas=s.db.filas := by
  by_cases h : TelaController.Aberta s.db u ∧ ∃ a g,TelaController.Escolhe s.db m a g
  · obtain ⟨hu,a,g,hag⟩ := h
    obtain ⟨log,he⟩ := TelaController.exec_inscrever hu hag
    rw [he]
    by_cases hp : s.db.core.proximaVaga a=none
    · have hd := (TelaController.exec_inscreve_none (g := g) hp).2
      change ((TelaController.inscreve a g).exec s).state.db.filas=_
      rw [hd]
      cases s.db.filaDe g.filaId <;> rfl
    · change ((TelaController.inscreve a g).exec s).state.db.filas=_
      rw [(TelaController.exec_inscreve_some hp).1]
  · have hn := TelaController.exec_inscrever_none (u := u) (m := m) (s := s)
      (fun hu a g hag => h ⟨hu,a,g,hag⟩)
    rw [hn.1]

/-- A first call always raises: the statistics divide by an attendance time nobody has set. -/
theorem primeira_chamada_raises {s : World} {f : Fila} (hs : SemChamadas s.db)
    (hc : s.db.core.Contigua) (hf : s.db.filas.find f.id=some f)
    (hlt : f.posicao<(s.db.contaVagas f.id : Int)) (mesa : Option Nat) :
    ((f.chamaProximo mesa 1).exec s).ok=false := by
  obtain ⟨hp,hta⟩ := hs f (Table.mem_of_find hf)
  rw [hp] at hlt
  obtain ⟨v,hva⟩ := (vagaAlvo_iff hc f 1).mpr (by omega)
  rw [← Bool.not_eq_true,ok_chamaProximo f 1 mesa s hf]
  intro hch
  obtain ⟨total,-,-,hor,-⟩ := hch v hva
  have hta' : (s.vista f).fila.tempoatendimento=none := hta
  have hm := (hor.resolve_left (fun hne => hne hta')).1.1
  omega

/-- A successful request of a colegiado has called nobody. -/
theorem SemChamadas.colegiadosProximo {s : World} (hs : SemChamadas s.db)
    (hc : s.db.core.Contigua) (u : Sessao) (c : Nat)
    (hok : ((ColegiadosController.proximo u c).exec s).ok=true) :
    ((ColegiadosController.proximo u c).exec s).state.db.filas=s.db.filas := by
  cases ha : (Requisicao.colegiadosProximo u c).alvo s.db with
  | none =>
    obtain ⟨ms,he⟩ := Requisicao.db_of_alvo_none ha
    rw [he]
  | some x =>
    obtain ⟨f,n⟩ := x
    obtain ⟨rfl,hf⟩ := Requisicao.alvo_colegiado ha
    obtain ⟨mesa,hok',-⟩ := Requisicao.alvo_some ha
    have hlt : f.posicao<(s.db.contaVagas f.id : Int) := by simpa using List.find?_some hf
    have hr := primeira_chamada_raises hs hc (Requisicao.alvo_find ha).1 hlt mesa
    have hno : ((ColegiadosController.proximo u c).exec s).ok=false := hok'.trans hr
    rw [hok] at hno
    cases hno

/-- From new filas on, no successful run calls anybody. -/
theorem Corre.semChamadas {s₀ s : World} {es : List Evento}
    (h : Corre (completas [.inscrever,.colegiadosProximo]) s₀ es s)
    (hf : SemChamadas s₀.db) (hv : s₀.db.vagas.rows=[]) : SemChamadas s.db := by
  induction h with
  | inicio => exact hf
  | passo r h hr ih =>
    obtain ⟨hok,hr⟩ := hr
    have hc := h.contigua hv
    cases r with
    | inscrever u m =>
      intro f hm
      exact ih f (filas_inscrever u m _ ▸ hm)
    | colegiadosProximo u c =>
      intro f hm
      exact ih f (ih.colegiadosProximo hc u c hok ▸ hm)
    | filasProximo u i => simp [Requisicao.acao] at hr
    | filasAnterior u i => simp [Requisicao.acao] at hr
    | filasUpdateAtivo u i b => simp [Requisicao.acao] at hr

/-- From filas created with `posicao` 0 on, the next request of a desk completes exactly when the
colegiado has nobody to call. -/
theorem proximo_completa {s₀ s : World} {es : List Evento}
    (hf : ∀ f ∈ s₀.db.filas.rows,f.posicao=0 ∧ f.toEstatisticas={}) (hv : s₀.db.vagas.rows=[])
    (h : Corre (completas [.inscrever,.colegiadosProximo]) s₀ es s) (u : Sessao) (c : Nat)
    (hu : Ability.manageAll u=true) (hc : (s.db.colegiados.find c).isSome=true)
    (hm : (u.mesa.bind s.db.mesas.find).isSome=true) :
    ((ColegiadosController.proximo u c).exec s).ok=true ↔
      ∀ f ∈ Colegiado.filasDe c s.db,s.db.vagasDe (some f.id)=[] := by
  have hs : SemChamadas s.db :=
    h.semChamadas (fun f hm => ⟨(hf f hm).1,by rw [(hf f hm).2]⟩) hv
  obtain ⟨m,hm⟩ := Option.isSome_iff_exists.mp hm
  have hcol := Requisicao.exec_colegiado hu hc hm
  have hzero : ∀ f ∈ Colegiado.filasDe c s.db,f.posicao=0 := by
    intro f hfm
    exact (hs f (List.mem_of_mem_filter ((mem_orderBy _ _ _).mp hfm))).1
  cases hfind : (Colegiado.filasDe c s.db).find?
      (fun f => decide (f.posicao<(s.db.contaVagas f.id : Int))) with
  | none =>
    rw [hfind] at hcol
    have hok : ((ColegiadosController.atende none m u).exec s).ok=true :=
      Requisicao.ok_esvazia m u s
    rw [hcol.1,hok]
    simp only [true_iff]
    intro f hfm
    have hn := List.find?_eq_none.mp hfind f hfm
    rw [hzero f hfm,Db.contaVagas] at hn
    apply List.eq_nil_of_length_eq_zero
    simp at hn
    simp [hn]
  | some f =>
    have ha : (Requisicao.colegiadosProximo u c).alvo s.db=some (f,1) := by
      simp [Requisicao.alvo,hu,hc,hm,hfind]
    obtain ⟨mesa,hok,-⟩ := Requisicao.alvo_some ha
    have hlt : f.posicao<(s.db.contaVagas f.id : Int) := by simpa using List.find?_some hfind
    have hr := primeira_chamada_raises hs (h.contigua hv) (Requisicao.alvo_find ha).1 hlt mesa
    have hno : ((ColegiadosController.proximo u c).exec s).ok=false := hok.trans hr
    rw [hno]
    simp only [Bool.false_eq_true,false_iff]
    intro hall
    have hfm := List.mem_of_find?_eq_some hfind
    rw [hzero f hfm,Db.contaVagas,hall f hfm] at hlt
    simp at hlt

/-- A call that finds nobody, an enrolment, and the call that then raises. -/
theorem proximo_completa_cenario : ∃ es s,
    Corre (completas [.inscrever,.colegiadosProximo]) (Cenario.world Cenario.nova .empty) es s ∧
    (∃ f ∈ Colegiado.filasDe 1 s.db,s.db.vagasDe (some f.id)≠[]) ∧
    ((ColegiadosController.proximo (Cenario.mesa 1) 1).exec s).ok=false := by
  have h₀ : Corre (completas [.inscrever,.colegiadosProximo])
      (Cenario.world Cenario.nova .empty) [] _ := .inicio
  have h₁ := h₀.passo (.colegiadosProximo (Cenario.mesa 1) 1) (by decide +kernel)
  have h₂ := h₁.passo (Cenario.inscreve "a") (by decide +kernel)
  have hiff := proximo_completa (by decide +kernel) (by decide +kernel) h₂ (Cenario.mesa 1) 1
    (by decide) (by decide +kernel) (by decide +kernel)
  refine ⟨_,_,h₂,by decide +kernel,?_⟩
  rw [← Bool.not_eq_true,hiff]
  decide +kernel

/-- One aluno enrols in a new fila and is called ten seconds later. -/
theorem proximo_completa_falha : ∃ es s,
    Corre (completas [.inscrever,.colegiadosProximo]) (Cenario.world Cenario.nova .empty) es s ∧
    s.db.vagas.rows.map (fun v => (v.createdAt,v.posicao))=[(0,some 1)] ∧ s.clock 0=10 ∧
    ((ColegiadosController.proximo (Cenario.mesa 1) 1).exec s).result=.error .typeError := by
  have h₀ : Corre (completas [.inscrever,.colegiadosProximo])
      (Cenario.world Cenario.nova .empty) [] _ := .inicio
  have h₁ := h₀.passo (Cenario.inscreve "a") (by decide +kernel)
  exact ⟨_,_,h₁,by decide +kernel,by decide +kernel,by rfl⟩

end Sisfila
