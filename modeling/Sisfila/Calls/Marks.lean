import Sisfila.Calls.FirstCall
import Sisfila.Queue.Answers

namespace Sisfila

/-- The vagas, each with the date of its call. -/
def Db.chamadas (d : Db) : List (VagaBase × Option ℚ) :=
  d.vagas.rows.map (fun v => (v.toVagaBase,v.dataChamada))

/-- What the call of `v` at time `t` does to a row: every valid vaga of the same aluno at the same
`posicao` gets the date. -/
def Core.carimba (k : Core) (v : VagaBase) (t : ℚ) (x : VagaBase × Option ℚ) :
    VagaBase × Option ℚ :=
  if x.1.alunoId==v.alunoId && x.1.posicao==v.posicao && k.vagaValida x.1 then (x.1,some t) else x

namespace Core

variable (k : Core) (v : VagaBase) (t : ℚ) (x : VagaBase × Option ℚ)

@[simp] theorem vagaValida_incrementa (i : Nat) (n : Int) :
    (k.incrementa i n).vagaValida v=k.vagaValida v := by
  unfold vagaValida incrementa
  congr 1
  cases v.filaId with
  | none => rfl
  | some f => rw [Option.bind_some,Option.bind_some,Table.find_modify,Option.isSome_map]

@[simp] theorem carimba_incrementa (i : Nat) (n : Int) :
    (k.incrementa i n).carimba v t=k.carimba v t := by
  funext y
  simp only [carimba,vagaValida_incrementa]

@[simp] theorem carimba_fst : (k.carimba v t x).1=x.1 := by
  unfold carimba
  split_ifs <;> rfl

/-- A date is never taken away. -/
theorem isSome_carimba (h : x.2.isSome=true) : (k.carimba v t x).2.isSome=true := by
  unfold carimba
  split_ifs
  · rfl
  · exact h

theorem carimba_self {w : VagaBase} (d : Option ℚ) (h : k.vagaValida w=true) :
    k.carimba w t (w,d)=(w,some t) := by
  simp [carimba,h]

/-- A row without a date gets one only as a vaga of the same aluno at the same `posicao`. -/
theorem carimba_ne (h : (k.carimba v t x).2≠x.2) :
    x.1.alunoId=v.alunoId ∧ x.1.posicao=v.posicao := by
  unfold carimba at h
  split_ifs at h with hc
  · simp only [Bool.and_eq_true,beq_iff_eq] at hc
    exact hc.1
  · exact absurd rfl h

end Core

/-- The core together with the dates of the calls. -/
structure Registro where
  core : Core
  chamadas : List (VagaBase × Option ℚ)
  linhas : chamadas.map Prod.fst=core.vagas.rows

def Db.registro (d : Db) : Registro where
  core := d.core
  chamadas := d.chamadas
  linhas := by simp [Db.chamadas]

@[simp] theorem Db.registro_core (d : Db) : d.registro.core=d.core := rfl
@[simp] theorem Db.registro_chamadas (d : Db) : d.registro.chamadas=d.chamadas := rfl

namespace Registro

/-- The vaga at the new pointer, if there is one, gets its date. -/
def chama (x : Registro) (f : FilaBase) (t : ℚ) : List (VagaBase × Option ℚ) :=
  match x.core.vagaEm f.id (f.posicao+1) with
  | none => x.chamadas
  | some v => x.chamadas.map (x.core.carimba v t)

/-- What an enrolment or a call of a colegiado can do. -/
inductive Passo (x : Registro) : Requisicao → Registro → Prop
  | nada (r : Requisicao) (y : Registro) (ms : Table Mesa) (hk : y.core={ x.core with mesas := ms })
      (hc : y.chamadas=x.chamadas) : Passo x r y
  | inscreve (u : Sessao) (m : Option String) (y : Registro) (a : Aluno) (g : Grupo) (f : FilaBase)
      (t : ℚ) (ha : a ∈ x.core.alunos.rows) (hm : a.matricula=m)
      (hg : a.primeiroGrupo x.core.grupos x.core.alunosGrupos=some g) (hgf : g.filaId=some f.id)
      (hf : x.core.filas.find f.id=some f)
      (hk : y.core=x.core.insereVaga a.id f.id (x.core.maiorPosicao f.id) t)
      (hc : y.chamadas=x.chamadas++[(x.core.novaVaga a.id f.id (x.core.maiorPosicao f.id) t,none)]) :
      Passo x (.inscrever u m) y
  | chama (u : Sessao) (c : Nat) (y : Registro) (f : FilaBase) (t : ℚ) (ms : Table Mesa)
      (hf : x.core.proximaFila c=some f)
      (hk : y.core={ x.core.incrementa f.id 1 with mesas := ms })
      (hc : y.chamadas=x.chama f t) : Passo x (.colegiadosProximo u c) y

end Registro

/-! The statements of a call, seen from the dates. -/

namespace Db

variable (d : Db)

theorem chamadas_map {g : Vaga → Vaga} {hg : ∀ v,Row.key (g v)=Row.key v}
    (h : ∀ v,(g v).toVagaBase=v.toVagaBase ∧ (g v).dataChamada=v.dataChamada) :
    ({ d with vagas := d.vagas.map g hg } : Db).chamadas=d.chamadas := by
  simp only [chamadas,Table.map_rows,List.map_map]
  refine List.map_congr_left ?_
  intro v _
  simp only [Function.comp_apply,(h v).1,(h v).2]

@[simp] theorem chamadas_updateFila (i : Option Nat) (g : Estatisticas → Estatisticas) :
    (d.updateFila i g).chamadas=d.chamadas := by
  cases i <;> rfl

theorem chamadas_espera (p : VagaBase → Bool) {g : Chamada → Chamada}
    (hg : ∀ c,(g c).dataChamada=c.dataChamada) : (d.updateVagas p g).chamadas=d.chamadas := by
  refine d.chamadas_map ?_
  intro v
  split_ifs
  · exact ⟨rfl,hg _⟩
  · exact ⟨rfl,rfl⟩

theorem chamadas_marca (v : Vaga) (t : ℚ) :
    (d.updateVagas (fun w => w.alunoId==v.alunoId && w.posicao==v.posicao)
      (fun c => { c with dataChamada := some t })).chamadas=
      d.chamadas.map (d.core.carimba v.toVagaBase t) := by
  simp only [chamadas,updateVagas,Table.map_rows,List.map_map]
  refine List.map_congr_left ?_
  intro w _
  simp only [Function.comp_apply,Core.carimba,vagaValida_core]
  split_ifs <;> rfl

end Db

/-- Statements that set no date. -/
def SemData (_ : World → Evento) (w : World → World) : Prop :=
  ∀ s,(w s).db.chamadas=s.db.chamadas

theorem estatistico_semData : Estatistico SemData where
  le _ _ := fun _ => rfl
  relogio := fun _ => rfl
  fila i g _ := fun s => s.db.chamadas_updateFila i g
  espera p _ hg := fun s => s.db.chamadas_espera p hg

theorem chamadas_exec {α : Type} {p : Req α} (hp : p.Every SemData) (s : World) :
    (p.exec s).state.db.chamadas=s.db.chamadas :=
  hp.exec_rel (fun a b => b.db.chamadas=a.db.chamadas) (fun _ => rfl)
    (fun _ _ _ hab hbc => hbc.trans hab) (fun _ _ h s => h s) s

theorem semData_ocupaMesa (v : Option Vaga) (mesa : Option Nat) :
    (Mesa.ocupaMesa v mesa).Every SemData :=
  Mesa.every_ocupaMesa estatistico_semData.toLeve v mesa (fun _ _ _ => rfl)

/-- The date is set before anything can raise, and nothing later touches it. -/
theorem chamadas_associaVagaAMesa (v : Vaga) (mesa : Option Nat) (s : World) :
    ((Mesa.associaVagaAMesa (some v) mesa).exec s).state.db.chamadas=
      s.db.chamadas.map (s.db.core.carimba v.toVagaBase (s.clock 0)) := by
  have hp : (Mesa.registraEspera v >>= fun _ => Mesa.ocupaMesa (some v) mesa).Every SemData :=
    (Mesa.every_registraEspera estatistico_semData v).bind (fun _ => semData_ocupaMesa _ _)
  rw [Mesa.associaVagaAMesa_marca,Prog.exec_bind]
  have hm := s.db.chamadas_marca v (s.clock 0)
  rw [← hm]
  exact chamadas_exec hp _

theorem chamadas_chamaProximo (f : Fila) (mesa : Option Nat) (s : World) :
    ((f.chamaProximo mesa 1).exec s).state.db.chamadas=
      s.db.registro.chama f.toFilaBase (s.clock 0) := by
  have hv := s.db.vagaEm_core f.id (f.posicao+1)
  rw [state_chamaProximo]
  unfold Registro.chama
  change _=match s.db.core.vagaEm f.id (f.posicao+1) with
    | none => s.db.chamadas
    | some v => s.db.chamadas.map (s.db.core.carimba v (s.clock 0))
  rw [hv]
  change _=match (s.db.vagaAlvo f 1).map Vaga.toVagaBase with
    | none => s.db.chamadas
    | some v => s.db.chamadas.map (s.db.core.carimba v (s.clock 0))
  cases s.db.vagaAlvo f 1 with
  | none => exact chamadas_exec (semData_ocupaMesa none mesa) _
  | some v =>
    rw [chamadas_associaVagaAMesa,Db.core_incrementa,Core.carimba_incrementa]
    rfl

/-- Every enrolment and every call of a colegiado is one of the steps, raising ones included. -/
theorem Requisicao.registro (r : Requisicao) (s : World)
    (hr : r.acao ∈ [Acao.inscrever,.colegiadosProximo]) :
    s.db.registro.Passo r (r.prog.exec s).state.db.registro := by
  cases r with
  | filasProximo u i => simp [acao] at hr
  | filasAnterior u i => simp [acao] at hr
  | filasUpdateAtivo u i b => simp [acao] at hr
  | inscrever u m =>
    have hd := TelaController.desfecho u m s
    change s.db.registro.Passo _ ((TelaController.inscrever u m).exec s).state.db.registro
    generalize ((TelaController.inscrever u m).exec s).result=x at hd
    generalize ((TelaController.inscrever u m).exec s).state.db=d at hd ⊢
    cases hd with
    | inscrito a g f t hu hag hv hf =>
      obtain ⟨ha,-,hg⟩ := hag
      obtain ⟨i,hi,hfi⟩ := Option.bind_eq_some_iff.mp hf
      obtain rfl : f.id=i := Table.key_of_find hfi
      have hfc : s.db.core.filas.find f.toFilaBase.id=some f.toFilaBase := by
        rw [Db.findFila_core,hfi]
        rfl
      refine .inscreve u m _ a g f.toFilaBase t (List.mem_of_find?_eq_some ha)
        (by simpa using List.find?_some ha) hg hi hfc ?_ ?_
      · rw [Db.registro_core,Db.registro_core,Db.maiorPosicao_core]
        exact s.db.core_insereVaga _ _ _ t
      · rw [Db.registro_core,Db.maiorPosicao_core]
        simp [Db.chamadas,Db.insereVaga,Core.novaVaga]
    | semRodada => exact .nada _ _ s.db.mesas rfl rfl
    | recusa => exact .nada _ _ s.db.mesas rfl rfl
    | naVez => exact .nada _ _ s.db.mesas rfl rfl
    | naFila => exact .nada _ _ s.db.mesas rfl rfl
    | semTempo => exact .nada _ _ s.db.mesas rfl rfl
    | semFila => exact .nada _ _ s.db.mesas rfl rfl
  | colegiadosProximo u c =>
    cases ha : (colegiadosProximo u c).alvo s.db with
    | none =>
      obtain ⟨ms,he⟩ := db_of_alvo_none ha
      have hk := congrArg Db.core he
      have hc := congrArg Db.chamadas he
      exact .nada _ _ ms hk hc
    | some x =>
      obtain ⟨f,n⟩ := x
      obtain ⟨rfl,hf⟩ := alvo_colegiado ha
      obtain ⟨mesa,-,hst⟩ := alvo_some ha
      obtain ⟨ms,hk⟩ := Core.Chama.exists_mesas
        (visto_chamaProximo f 1 mesa s (alvo_find ha).1)
      have hp := s.db.proximaFila_core c
      rw [hf] at hp
      rw [hst]
      exact .chama u c _ f.toFilaBase (s.clock 0) ms hp hk (chamadas_chamaProximo f mesa s)

/-- What every step keeps holds along a run of enrolments and calls. -/
theorem Corre.registro {p : Requisicao → Bool → Prop} {s₀ s : World} {es : List Evento}
    (h : Corre p s₀ es s) (hp : ∀ r ok,p r ok → r.acao ∈ [Acao.inscrever,.colegiadosProximo])
    {I : Registro → Prop} (h₀ : I s₀.db.registro)
    (hI : ∀ x r ok y,I x → p r ok → x.Passo r y → I y) : I s.db.registro := by
  induction h with
  | inicio => exact h₀
  | passo r _ hr ih => exact hI _ r _ _ ih hr (r.registro _ (hp r _ hr))

end Sisfila
