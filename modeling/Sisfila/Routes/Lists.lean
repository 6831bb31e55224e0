import Sisfila.Routes.Effects

namespace Sisfila

namespace Core

variable {k : Core}

/-! What the destroy and the update of a vaga leave of each list. -/

theorem naFila_put (f : Option Nat) (p : Option Int) (v : VagaBase) :
    naFila f (Listed.put p v)=naFila f v := rfl

theorem naFila_of_ne {f g : Option Nat} (h : g≠f) (v : VagaBase) (hv : naFila f v=true) :
    naFila g v=false := by
  unfold naFila at *
  rw [beq_iff_eq.mp hv]
  simpa using fun he : f=g => h he.symm

theorem vagasDe_apagaVaga_of_ne {v : VagaBase} (hv : v ∈ k.vagas.rows) {f : Nat}
    (hf : v.filaId≠some f) : (k.apagaVaga v).vagasDe f=k.vagasDe f :=
  Table.filter_remove_of_disjoint (naFila_put (some f)) (naFila_of_ne hf)
    (by simpa [naFila] using hf) hv

theorem length_vagasDe_apagaVaga {v : VagaBase} (hv : v ∈ k.vagas.rows) {f : Nat}
    (hf : v.filaId=some f) :
    ((k.apagaVaga v).vagasDe f).length+1=(k.vagasDe f).length := by
  have hs : naFila (some f) v=true := by simp [naFila,hf]
  have hr : (k.apagaVaga v).vagasDe f=_ :=
    Table.filter_remove (S := naFila v.filaId) (naFila_put (some f)) v k.vagas
  rw [hr,List.length_map]
  exact Table.length_filter_ne (S := naFila (some f)) hv hs

/-- A vaga leaves its list; the pointer has to be above what is left. -/
theorem NaLista.apagaVaga (h : k.NaLista) {v : VagaBase} (hv : v ∈ k.vagas.rows)
    (hp : ∀ f ∈ k.filas.rows,v.filaId=some f.id → f.posicao<((k.vagasDe f.id).length : Int)) :
    (k.apagaVaga v).NaLista := by
  intro f hf
  obtain ⟨h0,h1⟩ := h f hf
  by_cases hvf : v.filaId=some f.id
  · have hl := length_vagasDe_apagaVaga hv hvf
    have hlt := hp f hf hvf
    omega
  · rw [vagasDe_apagaVaga_of_ne hv hvf]
    exact ⟨h0,h1⟩

/-- Every list is full and no pointer is negative. -/
structure Cheia (k : Core) : Prop where
  filas : ∀ f,Filled VagaBase.posicao (k.vagasDe f)
  ponteiro : ∀ f ∈ k.filas.rows,0≤f.posicao

theorem Cheia.insereVaga (h : k.Cheia) (a f : Nat) (t : ℚ) :
    (k.insereVaga a f (k.maiorPosicao f) t).Cheia := by
  refine ⟨fun g => ?_,h.ponteiro⟩
  rw [vagasDe_insereVaga]
  split_ifs with hg
  · subst hg
    refine (h.filas f).append ?_
    have hm : k.maiorPosicao f=(k.vagasDe f).length := (h.filas f).foldr_max
    simp [novaVaga,hm]
  · exact h.filas g

theorem Cheia.avanca (h : k.Cheia) (i : Nat) : (k.incrementa i 1).Cheia := by
  refine ⟨h.filas,fun f hf => ?_⟩
  obtain ⟨g,hg,-,-,-,-,hp⟩ := k.mem_filas_incrementa hf
  have h0 := h.ponteiro g hg
  rw [hp]
  split_ifs <;> omega

theorem Cheia.apagaVaga (h : k.Cheia) {v : VagaBase} (hv : v ∈ k.vagas.rows) :
    (k.apagaVaga v).Cheia := by
  refine ⟨fun f => ?_,h.ponteiro⟩
  by_cases hf : v.filaId=some f
  · have hs : naFila v.filaId v=true := by simp [naFila]
    have hc := h.filas f
    unfold vagasDe at hc ⊢
    rw [← hf] at hc ⊢
    exact Table.filled_remove (naFila_put v.filaId) hv hs hc
  · rw [vagasDe_apagaVaga_of_ne hv hf]
    exact h.filas f

/-- The update keeps the lists full if the position it sets is not past the end. -/
theorem Cheia.atualizaVaga (h : k.Cheia) {v : VagaBase} (hv : v ∈ k.vagas.rows) {p : VagaParams}
    {q : Int} (hp : p.posicao.join=some q)
    (hq : q≤((k.vagas.rows.filter (naFila v.filaId)).length : Int)) :
    (k.atualizaVaga v p).Cheia := by
  refine ⟨fun f => ?_,h.ponteiro⟩
  have hm : p.atribuiBase v ∈ (k.vagas.modify v.id p.atribuiBase (fun _ => rfl)).rows :=
    List.mem_map.mpr ⟨v,hv,if_pos rfl⟩
  have hc : Filled VagaBase.posicao
      ((k.vagas.modify v.id p.atribuiBase (fun _ => rfl)).rows.filter (naFila (some f))) :=
    Table.filled_modify v.id p.atribuiBase (fun _ => rfl) (fun _ => rfl) (fun _ => rfl) (h.filas f)
  unfold Core.atualizaVaga vagasDe
  by_cases hf : v.filaId=some f
  · have hl := congrArg List.length (k.vagas.filter_modify v.id p.atribuiBase (fun _ => rfl)
      (S := naFila (some f)) (fun _ => rfl))
    rw [List.length_map] at hl
    rw [hp,hf]
    rw [hf,← hl] at hq
    refine Table.filled_moveTo (naFila_put (some f)) hm ?_ hc hq
    simp [naFila,VagaParams.atribuiBase,hf]
  · have hd := Table.filter_moveTo_of_disjoint (q := p.posicao.join) (naFila_put (some f))
      (naFila_of_ne hf) (by simpa [naFila,VagaParams.atribuiBase] using hf) hm
    exact Eq.mpr (congrArg (Filled VagaBase.posicao) hd) hc

end Core

/-! The pointer and the count. -/

/-- `inscrever`, the calls and `VagasController#destroy`. -/
def Rota.chamaOuApaga : Rota → Bool
  | .requisicao (.filasUpdateAtivo _ _ _) => false
  | .requisicao _ => true
  | .vagasDestroy _ _ => true
  | _ => false

/-- A superadmin steps back only from 1 on, and deletes a vaga only from a list that the pointer has
not used up. -/
def Rota.naFaixa (k : Core) : Rota → Bool
  | .requisicao (.filasAnterior u i) => decide (Ability.manageAll u=true →
      ∀ f ∈ k.filas.rows,f.id=i → 1≤f.posicao)
  | .vagasDestroy u i => decide (Ability.manageAll u=true → ∀ v ∈ k.vagas.rows,v.id=i →
      ∀ f ∈ k.filas.rows,v.filaId=some f.id → f.posicao<((k.vagasDe f.id).length : Int))
  | _ => true

theorem Core.Efeito.naLista_of_naFaixa {k k' : Core} {r : Requisicao} (h : k.Efeito r k')
    (hk : k.NaLista) (hs : Ability.manageAll r.sessao=true)
    (hr : (Rota.requisicao r).naFaixa k=true) : k'.NaLista := by
  cases h with
  | recua u f ms hf =>
    have hm := Table.mem_of_find hf
    have h1 := of_decide_eq_true hr hs f hm rfl
    obtain ⟨-,hn⟩ := hk f hm
    exact hk.incrementa hf (by omega) (by omega)
  | nada r ms => exact hk
  | inscreve s m a g f t => exact hk.insereVaga a.id f.id _ t
  | avanca r f ms h hf hn =>
    refine (Core.Efeito.avanca r f ms h hf hn).naLista ?_ hk
    rcases h with h | h <;> simp [h]
  | ativa s i b => exact (Core.Efeito.ativa s i b).naLista (by simp [Requisicao.acao]) hk

theorem Core.Muda.naLista {k k' : Core} {r : Rota} (h : k.Muda r k') (hk : k.NaLista)
    (hs : Ability.manageAll r.sessao=true) (hc : r.chamaOuApaga=true) (hr : r.naFaixa k=true) :
    k'.NaLista := by
  cases h with
  | nada => exact hk
  | rodadas => exact hk
  | requisicao r hp => exact hp.efeito.naLista_of_naFaixa hk hs hr
  | vagasDestroy s v hv ha =>
    have hm := Table.mem_of_find hv
    exact hk.apagaVaga hm (of_decide_eq_true hr hs v hm rfl)
  | _ => cases hc

def naFaixa (s : World) (r : Rota) (_ : Outcome Evento World Erro Resposta) : Prop :=
  r.chamaOuApaga=true ∧ r.naFaixa s.db.core=true

instance (s : World) (r : Rota) (o : Outcome Evento World Erro Resposta) :
    Decidable (naFaixa s r o) := inferInstanceAs (Decidable (_ ∧ _))

/-- Every pointer stays between 0 and the number of vagas as long as `anterior` is not used at 0 and
no vaga of a finished list is destroyed. -/
theorem naLista_naFaixa {s₀ s : World} (hz : ∀ f ∈ s₀.db.filas.rows,f.posicao=0)
    (h : Runs Rota.prog naFaixa s₀ s) : ∀ f ∈ s.db.filas.rows,
      0≤f.posicao ∧ f.posicao≤(s.db.contaVagas f.id : Int) := by
  have hn : s.db.core.NaLista := by
    refine h.invariant (fun s => s.db.core.NaLista) (Core.naLista_of_zero hz) ?_
    intro s r hi hr
    refine r.mantem s hi (Rota.importa_of (fun _ _ _ _ => rfl) hr.1) ?_ ?_
    · intro _ _ _ _ _ hp
      exact hp.efeito.naLista (by simp [Requisicao.acao]) hi
    · exact fun _ hs hm => hm.naLista hi hs hr.1 hr.2
  intro f hf
  have hf' : f.toFilaBase ∈ s.db.core.filas.rows := List.mem_map_of_mem hf
  rw [Db.contaVagas_core]
  exact hn _ hf'

/-- Two enrolments, a call, a step back and the deletion of a vaga. -/
theorem naLista_cenario :
    let s := runAll Rota.prog (Cenario.world Cenario.medida Table.empty)
      [.requisicao (Cenario.inscreve "a"),.requisicao (Cenario.inscreve "b"),
        .requisicao (.filasProximo (Cenario.mesa 1) 1),
        .requisicao (.filasAnterior (Cenario.mesa 1) 1),.vagasDestroy (Cenario.mesa 1) 1]
    s.db.vagas.rows.length=1 ∧ ∀ f ∈ s.db.filas.rows,
      0≤f.posicao ∧ f.posicao≤(s.db.contaVagas f.id : Int) := by
  refine ⟨by decide +kernel,?_⟩
  have hz : ∀ f ∈ (Cenario.world Cenario.medida Table.empty).db.filas.rows,f.posicao=0 := by
    decide
  exact naLista_naFaixa hz (Runs.start.append _ (by decide +kernel))

/-- `anterior` at 0 leaves -1; a vaga deleted after the last call leaves the pointer past the
list. -/
theorem naLista_falha :
    let s₀ := Cenario.world Cenario.medida Table.empty
    (∀ f ∈ s₀.db.filas.rows,f.posicao=0) ∧ s₀.db.vagas.rows=[] ∧
      (runAll Rota.prog s₀ [.requisicao (.filasAnterior (Cenario.mesa 1) 1)]).db.filas.rows.map
          (fun f => f.posicao)=[-1] ∧
      (let s := runAll Rota.prog s₀ [.requisicao (Cenario.inscreve "a"),
        .requisicao (.colegiadosProximo (Cenario.mesa 1) 1),.vagasDestroy (Cenario.mesa 1) 1]
      s.db.filas.rows.map (fun f => f.posicao)=[1] ∧ s.db.contaVagas 1=0) := by
  decide +kernel

/-! The count and the positions. -/

/-- `inscrever`, `ColegiadosController#proximo` and both writes of `VagasController`. -/
def Rota.chamaOuEdita : Rota → Bool
  | .requisicao (.inscrever _ _) => true
  | .requisicao (.colegiadosProximo _ _) => true
  | .vagasUpdate _ _ _ => true
  | .vagasDestroy _ _ => true
  | _ => false

/-- A superadmin's valid update sends a position, and none past the end of the list. -/
def Rota.ateOFim (k : Core) : Rota → Bool
  | .vagasUpdate u i p => decide (Ability.manageAll u=true → ∀ v ∈ k.vagas.rows,v.id=i →
      k.vagaValida (p.atribuiBase v)=true → ∃ q ∈ p.posicao.join,
        q≤((k.vagas.rows.filter (Core.naFila v.filaId)).length : Int))
  | _ => true

theorem Core.Cheia.passo {k k' : Core} {r : Requisicao} {ok : Bool} {es : List Evento}
    (h : k.Cheia) (hp : k.Passo r ok es k') (hc : (Rota.requisicao r).chamaOuEdita=true) :
    k'.Cheia := by
  cases hp.efeito with
  | nada r ms => exact ⟨h.filas,h.ponteiro⟩
  | inscreve s m a g f t => exact h.insereVaga a.id f.id t
  | avanca r f ms => exact ⟨(h.avanca f.id).filas,(h.avanca f.id).ponteiro⟩
  | recua => cases hc
  | ativa => cases hc

theorem Core.Muda.cheia {k k' : Core} {r : Rota} (h : k.Muda r k') (hk : k.Cheia)
    (hs : Ability.manageAll r.sessao=true) (hc : r.chamaOuEdita=true) (hr : r.ateOFim k=true) :
    k'.Cheia := by
  cases h with
  | nada => exact hk
  | rodadas => exact ⟨hk.filas,hk.ponteiro⟩
  | requisicao r hp => exact hk.passo hp hc
  | vagasUpdate s p v hv hp =>
    have hm := Table.mem_of_find hv
    obtain ⟨q,hq,hle⟩ := of_decide_eq_true hr hs v hm rfl hp
    exact hk.atualizaVaga hm hq hle
  | vagasDestroy s v hv ha => exact hk.apagaVaga (Table.mem_of_find hv)
  | _ => cases hc

def ateOFim (s : World) (r : Rota) (_ : Outcome Evento World Erro Resposta) : Prop :=
  r.chamaOuEdita=true ∧ r.ateOFim s.db.core=true

instance (s : World) (r : Rota) (o : Outcome Evento World Erro Resposta) :
    Decidable (ateOFim s r o) := inferInstanceAs (Decidable (_ ∧ _))

theorem cheia_ateOFim {s₀ s : World} (hz : ∀ f ∈ s₀.db.filas.rows,f.posicao=0)
    (hv : s₀.db.vagas.rows=[]) (h : Runs Rota.prog ateOFim s₀ s) : s.db.core.Cheia := by
  refine h.invariant (fun s => s.db.core.Cheia) ⟨fun f => ?_,fun f hf => ?_⟩ ?_
  · have hn : s₀.db.core.vagasDe f=[] := by simp [Core.vagasDe,hv]
    rw [hn]
    exact Filled.nil
  · exact (Core.naLista_of_zero hz f hf).1
  · intro s r hi hr
    refine r.mantem s hi (Rota.importa_of (fun _ _ _ _ => rfl) hr.1) ?_ ?_
    · exact fun _ _ _ _ _ hp => hi.passo hp rfl
    · exact fun _ hs hm => hm.cheia hi hs hr.1 hr.2

/-- A vaga of the fila after its pointer. -/
def Db.Espera (d : Db) (f : Fila) : Prop :=
  ∃ v ∈ d.vagasDe (some f.id),∃ p ∈ v.posicao,f.posicao<p

instance (d : Db) (f : Fila) : Decidable (d.Espera f) :=
  inferInstanceAs (Decidable (∃ v ∈ _,∃ p ∈ _,_))

theorem espera_iff {d : Db} (h : d.core.Cheia) {f : Fila} (hf : f ∈ d.filas.rows) :
    d.Espera f ↔ f.posicao<(d.contaVagas f.id : Int) := by
  have h0 : 0≤f.posicao := h.ponteiro f.toFilaBase (List.mem_map_of_mem hf)
  rw [Db.contaVagas_core,← (h.filas f.id).exists_above_iff h0,Db.vagasDe_core]
  constructor
  · rintro ⟨v,hv,p,hp,hlt⟩
    exact ⟨v.toVagaBase,List.mem_map_of_mem hv,p,hp,hlt⟩
  · rintro ⟨w,hw,p,hp,hlt⟩
    obtain ⟨v,hv,rfl⟩ := List.mem_map.mp hw
    exact ⟨v,hv,p,hp,hlt⟩

/-- `proxima_fila_nao_vazia` compares the pointer with the number of vagas. That finds nothing
exactly when no vaga waits, as long as nobody is moved past the end of a list or out of it. -/
theorem proximaFilaNaoVazia_ateOFim {s₀ s : World} (hz : ∀ f ∈ s₀.db.filas.rows,f.posicao=0)
    (hv : s₀.db.vagas.rows=[]) (h : Runs Rota.prog ateOFim s₀ s) (c : Nat) :
    ((Colegiado.proximaFilaNaoVazia c).exec s).result=.ok none ↔
      ∀ f ∈ s.db.filas.rows,f.colegiadoId=some c → ¬s.db.Espera f := by
  have hc := cheia_ateOFim hz hv h
  obtain ⟨log,he,-⟩ := reads_proximaFilaNaoVazia c s
  rw [he]
  simp only [Except.ok.injEq,List.find?_eq_none,decide_eq_true_eq,Colegiado.filasDe,mem_orderBy,
    List.mem_filter,beq_iff_eq]
  constructor
  · intro hn f hf hfc
    rw [espera_iff hc hf]
    exact hn f ⟨hf,hfc⟩
  · rintro hn f ⟨hf,hfc⟩
    rw [← espera_iff hc hf]
    exact hn f hf hfc

/-- Two enrolments, the second moved to the front, then one call. -/
theorem proximaFilaNaoVazia_cenario :
    let s := runAll Rota.prog (Cenario.world Cenario.medida Table.empty)
      [.requisicao (Cenario.inscreve "a"),.requisicao (Cenario.inscreve "b"),
        .vagasUpdate (Cenario.mesa 1) 2 { posicao := some (some 1) },
        .requisicao (.colegiadosProximo (Cenario.mesa 1) 1)]
    s.db.vagas.rows.map (fun v => v.posicao)=[some 2,some 1] ∧
      (∃ f ∈ s.db.filas.rows,f.colegiadoId=some 1 ∧ s.db.Espera f) ∧
      ((Colegiado.proximaFilaNaoVazia 1).exec s).result≠.ok none := by
  have hz : ∀ f ∈ (Cenario.world Cenario.medida Table.empty).db.filas.rows,f.posicao=0 := by
    decide
  refine ⟨by decide +kernel,by decide +kernel,?_⟩
  rw [ne_eq,proximaFilaNaoVazia_ateOFim hz rfl (Runs.start.append _ (by decide +kernel)) 1]
  decide +kernel

/-- Both vagas have been called; the second is then moved to position 10. It waits past the pointer,
but the fila counts as empty. -/
theorem proximaFilaNaoVazia_falha :
    let s₀ := Cenario.world Cenario.medida Table.empty
    let s := runAll Rota.prog s₀
      [.requisicao (Cenario.inscreve "a"),.requisicao (Cenario.inscreve "b"),
        .requisicao (.colegiadosProximo (Cenario.mesa 1) 1),
        .requisicao (.colegiadosProximo (Cenario.mesa 1) 1),
        .vagasUpdate (Cenario.mesa 1) 2 { posicao := some (some 10) }]
    (∀ f ∈ s₀.db.filas.rows,f.posicao=0) ∧ s₀.db.vagas.rows=[] ∧
      ((Colegiado.proximaFilaNaoVazia 1).exec s).result=.ok none ∧
      ∃ f ∈ s.db.filas.rows,f.colegiadoId=some 1 ∧ s.db.Espera f := by
  exact ⟨by decide,rfl,by decide +kernel,by decide +kernel⟩

end Sisfila
