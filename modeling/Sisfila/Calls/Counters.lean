import Sisfila.Calls.Blocks
import Sisfila.Calls.FirstCall
import Sisfila.Routes.Lists
import Sisfila.Routes.Moves

namespace Sisfila

/-! Pointers move by calls only. -/

namespace Requisicao

/-- A request that finds nobody to call leaves the filas alone. -/
theorem filas_of_alvo_none {r : Requisicao} {s : World} (hr : r.acao≠.filasUpdateAtivo)
    (h : r.alvo s.db=none) : (r.prog.exec s).state.db.filas=s.db.filas := by
  cases r with
  | inscrever u m => exact filas_inscrever u m s
  | filasUpdateAtivo u i b => exact absurd rfl hr
  | filasProximo u i =>
    rcases fila_of_alvo_none h with hs | ⟨-,ms,hms⟩
    · rw [prog,hs]
    · rw [prog,hms]
  | filasAnterior u i => rw [prog,anterior_of_alvo_none h]
  | colegiadosProximo u c =>
    obtain ⟨ms,hms⟩ := db_of_alvo_none h
    rw [prog,hms]

/-- Only `anterior` steps back, and no step forward starts at the end of the list. -/
theorem alvo_incremento {r : Requisicao} {d : Db} {f : Fila} {n : Int} (h : r.alvo d=some (f,n)) :
    n=1 ∧ f.posicao≠(d.contaVagas f.id : Int) ∨ n= -1 ∧ r.acao=.filasAnterior := by
  cases r with
  | inscrever u m => simp [alvo] at h
  | filasUpdateAtivo u i b => simp [alvo] at h
  | filasProximo u i =>
    simp only [alvo] at h
    split_ifs at h
    obtain ⟨g,-,he⟩ := Option.bind_eq_some_iff.mp h
    split_ifs at he with hn
    obtain ⟨rfl,rfl⟩ := Prod.mk.inj (Option.some.inj he)
    exact Or.inl ⟨rfl,hn⟩
  | filasAnterior u i =>
    simp only [alvo] at h
    split_ifs at h
    obtain ⟨g,-,he⟩ := Option.map_eq_some_iff.mp h
    exact Or.inr ⟨(Prod.mk.inj he).2.symm,rfl⟩
  | colegiadosProximo u c =>
    obtain ⟨rfl,hf⟩ := alvo_colegiado h
    have hlt : f.posicao<(d.contaVagas f.id : Int) := by simpa using List.find?_some hf
    exact Or.inl ⟨rfl,ne_of_lt hlt⟩

end Requisicao

theorem VagasController.filas_destroy (u : Sessao) (i : Nat) (s : World) :
    ((VagasController.destroy u i).exec s).state.db.filas=s.db.filas := by
  cases hv : s.db.vagas.find i with
  | none => simp [destroy,comFiltros,setVaga,acha,Prog.exec_bind,hv]
  | some v =>
    obtain rfl : v.id=i := Table.key_of_find hv
    rw [db_destroy u hv]
    split_ifs <;> rfl

/-- What a call does to the pointers. -/
theorem posicao_chamaProximo {f g g' : Fila} {n : Int} {mesa : Option Nat} {s : World} {i : Nat}
    (hf : s.db.filas.find f.id=some f) (hg : s.db.filas.find i=some g)
    (hg' : ((f.chamaProximo mesa n).exec s).state.db.filas.find i=some g') :
    g'.posicao=if i=f.id then g.posicao+n else g.posicao := by
  obtain ⟨ms,hk⟩ := Core.Chama.exists_mesas (visto_chamaProximo f n mesa s hf)
  have hfind := Table.find_modify s.db.core.filas f.id i
    (fun f => { f with posicao := f.posicao+n }) (fun _ => rfl)
  have hfilas : ((f.chamaProximo mesa n).exec s).state.db.core.filas=
      (s.db.core.incrementa f.id n).filas := by
    have hfilas := congrArg Core.filas hk
    exact hfilas
  have hc := ((f.chamaProximo mesa n).exec s).state.db.findFila_core i
  rw [hg',hfilas] at hc
  have hid : g.id=i := Table.key_of_find hg
  rw [Db.findFila_core,hg] at hfind
  have he := congrArg (Option.map FilaBase.posicao) (hc.symm.trans hfind)
  simp only [Option.map_some,Option.some.injEq,Row.key_filaBase,hid] at he
  rw [he]
  split_ifs <;> rfl

/-- One of the five requests leaves the filas as they are, or calls one of them. -/
theorem Rota.filas_or_chama {r : Rota} {s : World} (hr : r.chamaOuApaga=true) :
    (r.prog.exec s).state.db.filas=s.db.filas ∨ ∃ f n mesa,s.db.filas.find f.id=some f ∧
      (n=1 ∧ f.posicao≠(s.db.contaVagas f.id : Int) ∨
        n= -1 ∧ ∃ u i,r=.requisicao (.filasAnterior u i)) ∧
      (r.prog.exec s).state=((f.chamaProximo mesa n).exec s).state := by
  cases r with
  | vagasDestroy u j => exact Or.inl (VagasController.filas_destroy u j s)
  | requisicao q =>
    have hq : q.acao≠.filasUpdateAtivo := by
      intro h
      cases q with
      | filasUpdateAtivo u j b => simp [chamaOuApaga] at hr
      | _ => simp [Requisicao.acao] at h
    cases ha : q.alvo s.db with
    | none => exact Or.inl (Requisicao.filas_of_alvo_none hq ha)
    | some z =>
      obtain ⟨f,n⟩ := z
      obtain ⟨mesa,-,hst⟩ := Requisicao.alvo_some ha
      refine Or.inr ⟨f,n,mesa,(Requisicao.alvo_find ha).1,?_,hst⟩
      refine (Requisicao.alvo_incremento ha).imp_right (And.imp_right (fun h => ?_))
      cases q with
      | filasAnterior u i => exact ⟨u,i,rfl⟩
      | _ => cases h
  | _ => simp [chamaOuApaga] at hr

/-- Whatever moves the pointer of a fila is a call of that fila, by one up or down. -/
theorem Rota.chamou {r : Rota} {s : World} {i : Nat} {f f' : Fila} (hr : r.chamaOuApaga=true)
    (hf : s.db.filas.find i=some f) (hf' : (r.prog.exec s).state.db.filas.find i=some f')
    (hp : f'.posicao≠f.posicao) :
    ∃ n mesa,f'.posicao=f.posicao+n ∧
      (n=1 ∧ f.posicao≠(s.db.contaVagas f.id : Int) ∨ n= -1) ∧
      (r.prog.exec s).state=((f.chamaProximo mesa n).exec s).state := by
  rcases Rota.filas_or_chama (s := s) hr with he | ⟨g,n,mesa,hg,hn,hst⟩
  · rw [he,hf] at hf'
    exact absurd (congrArg (fun f => f.posicao) (Option.some.inj hf')).symm hp
  · rw [hst] at hf'
    have hpos := posicao_chamaProximo hg hf hf'
    split_ifs at hpos with hi
    · rw [← hi,hf] at hg
      obtain rfl := Option.some.inj hg
      exact ⟨n,mesa,hpos,hn.imp_right And.left,hst⟩
    · exact absurd hpos hp

/-! The invariants of the lists. -/

namespace Core

variable {k : Core}

theorem Contigua.apagaVaga (h : k.Contigua) {v : VagaBase} (hv : v ∈ k.vagas.rows) :
    (k.apagaVaga v).Contigua := by
  intro f
  by_cases hf : v.filaId=some f
  · have hs : naFila v.filaId v=true := by simp [naFila]
    have hc := h f
    unfold vagasDe at hc ⊢
    rw [← hf] at hc ⊢
    exact Table.numbered_remove (naFila_put v.filaId) hv hs hc
  · rw [vagasDe_apagaVaga_of_ne hv hf]
    exact h f

/-- Every fila has its colegiado, and its vagas are numbered in the order of enrolment. -/
structure Ordeira (k : Core) : Prop where
  contigua : k.Contigua
  valida : ∀ f ∈ k.filas.rows,k.filaValida f=true

theorem Ordeira.filaValida {d : Db} (h : d.core.Ordeira) {i : Nat} {f : Fila}
    (hf : d.filas.find i=some f) : d.filaValida f.toFilaBase=true :=
  h.valida f.toFilaBase (List.mem_map_of_mem (Table.mem_of_find hf))

theorem Ordeira.incrementa (h : k.Ordeira) (i : Nat) (n : Int) : (k.incrementa i n).Ordeira := by
  refine ⟨h.contigua,fun f hf => ?_⟩
  obtain ⟨g,hg,-,-,-,hc,-⟩ := k.mem_filas_incrementa hf
  have hv := h.valida g hg
  unfold Core.filaValida at hv ⊢
  rw [hc]
  exact hv

theorem Contigua.muda (h : k.Contigua) {k' : Core} {r : Rota} (hm : k.Muda r k')
    (hr : r.chamaOuApaga=true) : k'.Contigua := by
  cases hm with
  | nada => exact h
  | rodadas => exact h
  | vagasDestroy s v hv ha => exact h.apagaVaga (Table.mem_of_find hv)
  | requisicao r hp =>
    cases hp.efeito with
    | nada => exact h
    | inscreve s m a g f t => exact h.insereVaga a.id f.id t
    | avanca r f ms => exact h
    | recua s f ms => exact h
    | ativa => exact h
  | _ => cases hr

theorem Ordeira.muda (h : k.Ordeira) {k' : Core} {r : Rota} (hm : k.Muda r k')
    (hr : r.chamaOuApaga=true) : k'.Ordeira := by
  refine ⟨h.contigua.muda hm hr,?_⟩
  cases hm with
  | nada => exact h.valida
  | rodadas => exact h.valida
  | vagasDestroy s v hv ha => exact h.valida
  | requisicao r hp =>
    cases hp.efeito with
    | nada => exact h.valida
    | inscreve s m a g f t => exact h.valida
    | avanca r f ms => exact (h.incrementa f.id 1).valida
    | recua s f ms => exact (h.incrementa f.id (-1)).valida
    | ativa => simp [Rota.chamaOuApaga] at hr
  | _ => cases hr

end Core

/-- The five requests, whatever they answer. -/
def chamaOuApaga (_ : World) (r : Rota) (_ : Outcome Evento World Erro Resposta) : Prop :=
  r.chamaOuApaga=true

instance (s : World) (r : Rota) (o : Outcome Evento World Erro Resposta) :
    Decidable (chamaOuApaga s r o) := inferInstanceAs (Decidable (_=_))

theorem Rota.contigua {r : Rota} {s : World} (h : s.db.core.Contigua) (hr : r.chamaOuApaga=true) :
    (r.prog.exec s).state.db.core.Contigua :=
  h.muda (r.muda s (Rota.importa_of (fun _ _ _ _ => rfl) hr)) hr

/-- The lists stay numbered from 1 in the order of enrolment: in every state that enrolments, calls,
steps back and deletions reach from no vagas, the vagas of a fila, in the order of their ids, have
the positions 1, ..., n. -/
theorem vagas_numeradas {s₀ s : World} (hv : s₀.db.vagas.rows=[])
    (h : Runs Rota.prog chamaOuApaga s₀ s) (f : Nat) :
    (s.db.vagasDe (some f)).map (fun v => v.posicao)=
        (List.range (s.db.contaVagas f)).map (fun i : Nat => some ((i : Int)+1)) ∧
      ∀ v ∈ s.db.vagasDe (some f),∀ w ∈ s.db.vagasDe (some f),v.id<w.id →
        ∃ p q,v.posicao=some p ∧ w.posicao=some q ∧ p<q := by
  have hcont : s.db.core.Contigua := h.invariant (fun s => s.db.core.Contigua)
    (Core.contigua_of_vazia (by simp [hv])) (fun s r hi hr => Rota.contigua hi hr)
  have hnum := hcont.numerada f
  refine ⟨hnum.map_pos,?_⟩
  intro v hvm w hwm hlt
  exact hnum.lt_of_key_lt (s.db.vagas.ascending.filter _) hvm hwm hlt

/-- Three enrolments, a call, the second vaga deleted, and one more enrolment. -/
theorem vagas_numeradas_cenario :
    let s := runAll Rota.prog (Cenario.world Cenario.nova Table.empty)
      [.requisicao (Cenario.inscreve "a"),.requisicao (Cenario.inscreve "b"),
        .requisicao (Cenario.inscreve "c"),.requisicao (.filasProximo (Cenario.mesa 1) 1),
        .vagasDestroy (Cenario.mesa 1) 2,.requisicao (Cenario.inscreve "d")]
    (s.db.vagasDe (some 1)).map (fun v => v.id)=[1,3,4] ∧
      (s.db.vagasDe (some 1)).map (fun v => v.posicao)=
        (List.range (s.db.contaVagas 1)).map (fun i : Nat => some ((i : Int)+1)) ∧
      ∀ v ∈ s.db.vagasDe (some 1),∀ w ∈ s.db.vagasDe (some 1),v.id<w.id →
        ∃ p q,v.posicao=some p ∧ w.posicao=some q ∧ p<q := by
  intro s
  have hrun : Runs Rota.prog chamaOuApaga (Cenario.world Cenario.nova Table.empty) s :=
    Runs.start.append _ (by decide +kernel)
  have hids : (s.db.vagasDe (some 1)).map (fun v => v.id)=[1,3,4] := by decide +kernel
  clear_value s
  exact ⟨hids,vagas_numeradas rfl hrun 1⟩

theorem Rota.ordeira {r : Rota} {s : World} (h : s.db.core.Ordeira) (hr : r.chamaOuApaga=true) :
    (r.prog.exec s).state.db.core.Ordeira :=
  h.muda (r.muda s (Rota.importa_of (fun _ _ _ _ => rfl) hr)) hr

theorem ordeira_of_vazia {d : Db} (hv : d.vagas.rows=[])
    (hf : ∀ f ∈ d.filas.rows,d.filaValida f.toFilaBase=true) : d.core.Ordeira := by
  refine ⟨Core.contigua_of_vazia (by simp [hv]),fun f hm => ?_⟩
  obtain ⟨g,hg,rfl⟩ := List.mem_map.mp hm
  exact hf g hg

/-! The counters. -/

/-- The three counters of the fila, for a call of `v`. -/
structure Db.Contados (d : Db) (f : Fila) (v : Vaga) : Prop where
  npatendidas : f.npatendidas=some (((d.vagasDe (some f.id)).countP
    (fun w => decide (∃ q ∈ w.posicao,∃ p ∈ v.posicao,q≤p)) : Nat) : Int)
  npaguardando : f.npaguardando=some (((d.vagasDe (some f.id)).countP
    (fun w => decide (∃ q ∈ w.posicao,∃ p ∈ v.posicao,p<q)) : Nat) : Int)
  nptotal : f.nptotal=some (d.contaVagas f.id : Int)

namespace Mesa

variable {i : Nat} {x : Vista} {t : World} {v : Vaga}

theorem conserva_contadores (v : Vaga) (mesa : Option Nat) (npat : Int) (nptt : Option Int) :
    (medeChamada v mesa npat nptt).Every
      (Conserva (fun e => (e.npatendidas,e.npaguardando,e.nptotal))) := by
  have hS := leve_conserva (fun e => (e.npatendidas,e.npaguardando,e.nptotal))
  refine (every_abreMedicao hS v _ _ (fun _ _ => rfl) (fun _ _ => rfl)).bind (fun _ => ?_)
  refine (every_mede hS v _ _ (fun _ _ => rfl) (fun _ _ => rfl)).bind (fun _ => ?_)
  refine (every_fechaMedicao hS v _ _ (fun _ _ => rfl)).bind (fun _ => ?_)
  exact conserva_encerraChamada (fun _ _ => rfl) (fun _ _ => rfl) (fun _ _ => rfl) v mesa nptt

/-- What a call leaves in the counters, wherever it stops. -/
theorem contagem_associaVagaAMesa (h : Ve i x t) (hv : v.filaId=some i) {u : Vaga}
    {p total : Int} (hu : x.vagas.getLast?=some u) (ht : u.posicao=some total)
    (hp : v.posicao=some p) (mesa : Option Nat) :
    ∃ y,Ve i y ((associaVagaAMesa (some v) mesa).exec t).state ∧ y.valida=x.valida ∧
      y.vagas.map Vaga.toVagaBase=x.vagas.map Vaga.toVagaBase ∧
      (y.fila.npatendidas,y.fila.npaguardando,y.fila.nptotal)=if x.valida
        then (some p,some (total-p),some total)
        else (x.fila.npatendidas,x.fila.npaguardando,x.fila.nptotal) := by
  obtain ⟨t',ht',hst⟩ := state_associaVagaAMesa h hv hu ht hp mesa
  obtain ⟨y,hy,hvs,hval,-,hc⟩ := ht'.conserva (conserva_contadores v mesa p (some total))
  rw [← hst] at hy
  refine ⟨y,hy,hval,?_,?_⟩
  · rw [hvs]
    exact vagas_entrada x v p total
  · rw [hc,estatisticas_entrada]
    split_ifs
    · rfl
    · rfl

/-- With its colegiado the fila can be saved. -/
theorem contadores_associaVagaAMesa (h : Ve i x t) (hval : x.valida=true) (hv : v.filaId=some i)
    {u : Vaga} {p total : Int} (hu : x.vagas.getLast?=some u) (ht : u.posicao=some total)
    (hp : v.posicao=some p) (mesa : Option Nat) :
    ∃ y,Ve i y ((associaVagaAMesa (some v) mesa).exec t).state ∧
      y.vagas.map Vaga.toVagaBase=x.vagas.map Vaga.toVagaBase ∧ y.fila.npatendidas=some p ∧
      y.fila.npaguardando=some (total-p) ∧ y.fila.nptotal=some total := by
  obtain ⟨y,hy,-,hvs,hc⟩ := contagem_associaVagaAMesa h hv hu ht hp mesa
  rw [if_pos hval] at hc
  simp only [Prod.mk.injEq] at hc
  exact ⟨y,hy,hvs,hc⟩

end Mesa

/-- The last vaga of a numbered list that has one, and the position of any. -/
theorem Core.Contigua.posicoes {d : Db} (h : d.core.Contigua) {i : Nat} {v : Vaga}
    (hv : v ∈ d.vagasDe (some i)) :
    (∃ u,(d.vagasDe (some i)).getLast?=some u ∧ u.posicao=some (d.contaVagas i : Int)) ∧
      ∃ n : Nat,v.posicao=some (n : Int) ∧ n≤d.contaVagas i := by
  have hnum := h.numerada i
  constructor
  · have hu := List.getLast?_eq_some_getLast (List.ne_nil_of_mem hv)
    exact ⟨_,hu,hnum.getLast_pos hu⟩
  · obtain ⟨k,hk,-,hp⟩ := hnum.pos_of_mem hv
    exact ⟨k+1,by rw [hp]; push_cast; rfl,hk⟩

/-- Along a numbered list the positions count the vagas. -/
theorem Ve.contados {i : Nat} {y : Vista} {t : World} (h : Ve i y t)
    (hnum : Numbered VagaBase.posicao (y.vagas.map Vaga.toVagaBase)) {n : Nat}
    (hn : n≤y.vagas.length) {v : Vaga} (hv : v.posicao=some (n : Int))
    (hat : y.fila.npatendidas=some (n : Int))
    (hag : y.fila.npaguardando=some ((y.vagas.length : Int)-n))
    (htot : y.fila.nptotal=some (y.vagas.length : Int)) : t.db.Contados y.fila v := by
  have hid : y.fila.id=i := Table.key_of_find h.fila
  have hn' : n≤(y.vagas.map Vaga.toVagaBase).length := by
    rw [List.length_map]
    exact hn
  have hle := hnum.countP_le hn'
  have hgt := hnum.countP_gt hn'
  rw [List.countP_map,Function.comp_def] at hle hgt
  rw [List.length_map] at hgt
  refine ⟨?_,?_,?_⟩
  · rw [hid,h.vagas,hat,hv]
    simp only [Option.mem_some_iff,exists_eq_left']
    rw [hle]
  · rw [hid,h.vagas,hag,hv]
    simp only [Option.mem_some_iff,exists_eq_left']
    congr 1
    omega
  · rw [hid,Db.contaVagas,h.vagas,htot]

/-- The counters are exact after every call, of whatever request and however it ends: in every state
that enrolments, calls, steps back and deletions reach from no vagas, a request that moves the
pointer of a fila to a vaga leaves the number of vagas up to it, after it and in all. -/
theorem contadores_exatos {s₀ s : World} (hv : s₀.db.vagas.rows=[])
    (hf₀ : ∀ f ∈ s₀.db.filas.rows,s₀.db.filaValida f.toFilaBase=true)
    (h : Runs Rota.prog chamaOuApaga s₀ s) {r : Rota} (hr : r.chamaOuApaga=true) {i : Nat}
    {f f' : Fila} {v : Vaga} (hf : s.db.filas.find i=some f)
    (hf' : (r.prog.exec s).state.db.filas.find i=some f') (hp : f'.posicao≠f.posicao)
    (hvm : v ∈ (r.prog.exec s).state.db.vagasDe (some i)) (hvp : v.posicao=some f'.posicao) :
    (r.prog.exec s).state.db.Contados f' v := by
  have hord : s.db.core.Ordeira := h.invariant (fun s => s.db.core.Ordeira)
    (ordeira_of_vazia hv hf₀) (fun s r hi hr => Rota.ordeira hi hr)
  obtain ⟨n,mesa,hpos,-,hst⟩ := Rota.chamou hr hf hf' hp
  have hid : f.id=i := Table.key_of_find hf
  subst hid
  rw [hst] at hf' hvm ⊢
  cases hva : s.db.vagaAlvo f n with
  | none =>
    -- whoever is at the new pointer was there for the lookup
    obtain ⟨ms,hms⟩ := db_chamaProximo_of_none hva mesa
    rw [hms] at hvm
    have hno := List.find?_eq_none.mp hva v hvm
    simp [hvp,hpos] at hno
  | some w =>
    rw [state_chamaProximo,hva] at hf' hvm ⊢
    obtain ⟨hwm,hwp,hwf⟩ := Db.vagaAlvo_some hva
    obtain ⟨⟨u,hu,hup⟩,m,hwn,hmn⟩ := hord.contigua.posicoes hwm
    have hval := hord.filaValida hf
    obtain ⟨y,hy,hbase,hat,hag,htot⟩ :=
      Mesa.contadores_associaVagaAMesa (ve_incrementa hf n) hval hwf hu hup hwn mesa
    obtain rfl : y.fila=f' := Option.some.inj (hy.fila.symm.trans hf')
    have hm : f.posicao+n=(m : Int) := Option.some.inj (hwp.symm.trans hwn)
    have hvp' : v.posicao=some (m : Int) := by rw [hvp,hpos,hm]
    have hnum : Numbered VagaBase.posicao (y.vagas.map Vaga.toVagaBase) := by
      have hc := hord.contigua f.id
      rw [Db.vagasDe_core] at hc
      rw [hbase]
      exact hc
    have hlen : y.vagas.length=s.db.contaVagas f.id := by
      have hl := congrArg List.length hbase
      rw [List.length_map,List.length_map] at hl
      exact hl
    rw [← hlen] at hag htot hmn
    exact hy.contados hnum hmn hvp' hat hag htot

/-- Three enrolments, the second deleted, then a first call, which raises: one person called, one
waiting. -/
theorem contadores_exatos_cenario :
    let s := runAll Rota.prog (Cenario.world Cenario.nova Table.empty)
      [.requisicao (Cenario.inscreve "a"),.requisicao (Cenario.inscreve "b"),
        .requisicao (Cenario.inscreve "c"),.vagasDestroy (Cenario.mesa 1) 2]
    let o := (Rota.requisicao (.filasProximo (Cenario.mesa 1) 1)).prog.exec s
    o.ok=false ∧ ∃ f' ∈ o.state.db.filas.find 1,∃ v ∈ o.state.db.vagasDe (some 1),
      f'.npatendidas=some 1 ∧ f'.npaguardando=some 1 ∧ o.state.db.Contados f' v := by
  intro s o
  have hrun : Runs Rota.prog chamaOuApaga (Cenario.world Cenario.nova Table.empty) s :=
    Runs.start.append _ (by decide +kernel)
  have hok : o.ok=false := by decide +kernel
  obtain ⟨f,hf,f',hf',hp,v,hv,hvp,hat,hag⟩ : ∃ f ∈ s.db.filas.find 1,
      ∃ f' ∈ ((Rota.requisicao (.filasProximo (Cenario.mesa 1) 1)).prog.exec s).state.db.filas.find
        1,f'.posicao≠f.posicao ∧
      ∃ v ∈ ((Rota.requisicao (.filasProximo (Cenario.mesa 1) 1)).prog.exec s).state.db.vagasDe
        (some 1),v.posicao=some f'.posicao ∧ f'.npatendidas=some 1 ∧ f'.npaguardando=some 1 := by
    decide +kernel
  clear_value s
  exact ⟨hok,f',hf',v,hv,hat,hag,contadores_exatos rfl (by decide) hrun rfl hf hf' hp hv hvp⟩

end Sisfila
