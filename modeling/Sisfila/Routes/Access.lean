import Sisfila.Framework.Runs
import Sisfila.Model.Routes
import Sisfila.Queue.Answers

namespace Sisfila

open Prog

/-! Nothing is written before CanCan has agreed. -/

section readOnly

variable {α ρ : Type} {s : Sessao}

theorem readOnly_le (l : Db → Evento) (q : Db → α) : (le l q).ReadOnly :=
  ⟨fun _ => rfl,fun _ => trivial⟩

theorem readOnly_orRaise (e : Erro) (o : Option α) : (orRaise e o).ReadOnly := by
  cases o <;> trivial

theorem readOnly_acha (q : Db → Option ρ) : (acha q).ReadOnly :=
  (readOnly_le _ q).bind (fun _ => readOnly_orRaise _ _)

theorem readOnly_ret (a : α) : (pure a : Req α).ReadOnly := trivial

theorem readOnly_authorize_bind (hs : Ability.manageAll s=false) (f : Unit → Req α) :
    (authorize s >>= f).ReadOnly := by
  have he : (authorize s >>= f)=.raise .accessDenied := by simp [authorize,hs]
  rw [he]
  trivial

theorem readOnly_authorize (s : Sessao) : (authorize s).ReadOnly := by
  unfold authorize
  split <;> trivial

theorem readOnly_comFiltros {achar : Req ρ} (ha : achar.ReadOnly) (entrada : Bool)
    {acao : ρ → Req Resposta} (hf : ∀ r,(authorize s >>= fun _ => acao r).ReadOnly) :
    (comFiltros achar entrada s acao).ReadOnly := by
  refine ha.bind (fun r => ?_)
  split
  · trivial
  · exact hf r

/-- The body of a filtered action is never reached without `can :manage, :all`. -/
theorem readOnly_negado {achar : Req ρ} (ha : achar.ReadOnly) (entrada : Bool)
    (hs : Ability.manageAll s=false) (acao : ρ → Req Resposta) :
    (comFiltros achar entrada s acao).ReadOnly :=
  readOnly_comFiltros ha entrada (fun _ => readOnly_authorize_bind hs _)

theorem readOnly_leitura {achar : Req ρ} (ha : achar.ReadOnly) (entrada : Bool)
    {acao : ρ → Req Resposta} (hf : ∀ r,(acao r).ReadOnly) :
    (comFiltros achar entrada s acao).ReadOnly :=
  readOnly_comFiltros ha entrada (fun r => (readOnly_authorize s).bind (fun _ => hf r))

theorem readOnly_setFila (i : Nat) : (FilasController.setFila i).ReadOnly :=
  (readOnly_le _ _).bind (fun _ => readOnly_orRaise _ _)

theorem readOnly_setColegiado (i : Nat) : (ColegiadosController.setColegiado i).ReadOnly :=
  readOnly_acha _

end readOnly

theorem readOnly_achaLinha (c : Recurso) (i : Nat) : (c.achaLinha i).ReadOnly := by
  cases c with
  | alunos => exact (readOnly_acha _).bind (fun _ => trivial)
  | colegiados => exact (readOnly_setColegiado i).bind (fun _ => trivial)
  | filas => exact (readOnly_setFila i).bind (fun _ => trivial)
  | mesas => exact (readOnly_acha _).bind (fun _ => trivial)
  | rodadas => exact (readOnly_acha _).bind (fun _ => trivial)
  | vagas => exact (readOnly_acha _).bind (fun _ => trivial)

theorem readOnly_mostra {ρ : Type} {achar : Req ρ} (ha : achar.ReadOnly) (entrada : Bool)
    (s : Sessao) : (mostra achar entrada s).ReadOnly :=
  readOnly_leitura ha entrada (fun _ => trivial)

theorem readOnly_index (c : Recurso) (s : Sessao) : (c.index s).ReadOnly := by
  cases c with
  | vagas =>
    exact readOnly_leitura (readOnly_ret ()) false (fun _ =>
      (readOnly_le _ _).bind (fun _ => (readOnly_orRaise _ _).bind (fun _ => trivial)))
  | _ => exact readOnly_mostra (readOnly_ret ()) _ s

theorem readOnly_ultimaVaga (f : Option Nat) : (Mesa.ultimaVaga f).ReadOnly :=
  (readOnly_le _ _).bind (fun _ => readOnly_orRaise _ _)

/-! The statistics only read. -/

namespace FilasController

variable {S : (World → Evento) → (World → World) → Prop} (hS : S (fun _ => .consulta) id)

include hS

private theorem every_busca {α β : Type} (q : Db → α) (e : Erro) (g : α → Option β) :
    (consulta q >>= fun x => orRaise e (g x)).Every S :=
  Every.bind ⟨hS,fun _ => trivial⟩ (fun _ => every_orRaise _ _)

omit hS in
private theorem every_duracao (x : Option Dbl) : (duracao x).Every S := by
  unfold duracao
  split <;> trivial

/-- What both reports read after the waiting time. -/
private theorem every_restante {α : Type} (fila : Fila) (n : Int)
    (g : ℚ → Option Dbl → Vaga → Vaga → Vaga → Vaga → Dbl → α) : (do
      let lida ← acha (fun d => d.filas.find fila.id)
      let tmpatdfila ← duracao lida.tempoatendimento
      let nmcf ← nmcf fila
      let prifila ← Mesa.primeiraVaga (some fila.id)
      let ultfila ← Mesa.ultimaVaga (some fila.id)
      let priatendida ← Mesa.primeiraVaga (some fila.id)
      let ultatendida ← vagaNoIndice fila n
      let intensidadefila ← intensidadefila fila
      pure (g tmpatdfila nmcf prifila ultfila priatendida ultatendida intensidadefila) :
        Req α).Every S := by
  have hraise : ∀ {ρ : Type} (e : Erro) (o : Option ρ) {β : Type} {f : ρ → Req β},
      (∀ r,(f r).Every S) → (orRaise e o >>= f).Every S :=
    fun e o _ _ hf => (every_orRaise e o).bind hf
  refine (every_busca hS _ _ _).bind (fun _ => (every_duracao _).bind (fun _ => ?_))
  refine Every.bind (hraise _ _ (fun _ => hraise _ _ (fun _ => trivial))) (fun _ => ?_)
  refine (every_busca hS _ _ _).bind (fun _ => (every_busca hS _ _ _).bind (fun _ => ?_))
  refine (every_busca hS _ _ _).bind (fun _ => (every_busca hS _ _ _).bind (fun _ => ?_))
  exact Every.bind (hraise _ _ (fun _ => hraise _ _ (fun _ => trivial))) (fun _ => trivial)

private theorem every_responde {corpo : Fila → Int → Req Relatorio}
    (hc : ∀ fila n,(corpo fila n).Every S) (s : Sessao) (i : Nat) :
    (responde (comGuarda corpo s i)).Every S := by
  refine Every.bind ?_ (fun o => by cases o <;> trivial)
  have ha : (authorize s).Every S := by
    unfold authorize
    split <;> trivial
  refine (every_busca hS _ _ _).bind (fun fila => ha.bind (fun _ => ?_))
  split
  · trivial
  · refine (every_orRaise _ _).bind (fun n => ?_)
    split
    · trivial
    · exact (hc fila n).bind (fun _ => trivial)

theorem every_geraEstatisticasTela (s : Sessao) (i : Nat) :
    (responde (geraEstatisticasTela s i)).Every S :=
  every_responde hS (fun fila n => (every_busca hS _ _ _).bind (fun _ => (every_duracao _).bind
    (fun _ => every_restante hS fila n _))) s i

theorem every_geraEstatisticasArquivo (s : Sessao) (i : Nat) :
    (responde (geraEstatisticasArquivo s i)).Every S := by
  refine every_responde hS (fun fila n => Every.bind ?_ (fun _ => every_restante hS fila n _)) s i
  refine (every_orRaise _ _).bind (fun _ => (every_orRaise _ _).bind (fun _ => ?_))
  dsimp only
  split
  · exact every_duracao _
  · exact every_duracao _

end FilasController

/-! The position page is open to everybody and only reads. -/

namespace Aluno

theorem readOnly_procuraVaga (a : Aluno) (fs : List Fila) : (a.procuraVaga fs).ReadOnly := by
  induction fs with
  | nil => trivial
  | cons f fs ih =>
    refine (readOnly_le _ _).bind (fun achou => ?_)
    split
    · exact (readOnly_le _ _).bind (fun _ => trivial)
    · exact ih

theorem readOnly_proximaVaga (a : Aluno) : a.proximaVaga.ReadOnly :=
  (readOnly_le _ _).bind (fun _ => (readOnly_le _ _).bind (readOnly_procuraVaga a))

theorem readOnly_somaFilas (fs : List Fila) (soma : Int) : (somaFilas fs soma).ReadOnly := by
  induction fs generalizing soma with
  | nil => trivial
  | cons f fs ih =>
    exact (readOnly_ultimaVaga _).bind (fun _ => (readOnly_orRaise _ _).bind (fun _ => ih _))

theorem readOnly_posicaoTotal (a : Aluno) : a.posicaoTotal.ReadOnly := by
  refine (readOnly_proximaVaga a).bind (fun x => ?_)
  split
  · trivial
  · split
    · trivial
    · refine (readOnly_le _ _).bind (fun _ => (readOnly_le _ _).bind (fun _ => ?_))
      exact (readOnly_somaFilas _ _).bind (fun _ => (readOnly_orRaise _ _).bind (fun _ => trivial))

end Aluno

theorem readOnly_posicaoAluno (m : Option String) : (TelaController.posicaoAluno m).ReadOnly := by
  refine (readOnly_le _ _).bind (fun aluno => ?_)
  split
  · trivial
  · rename_i a
    refine (Aluno.readOnly_proximaVaga a).bind (fun vaga => ?_)
    refine (Aluno.readOnly_posicaoTotal a).bind (fun lugar => ?_)
    split
    · have ht : (TelaController.tempoEstimado vaga lugar).ReadOnly := by
        refine (readOnly_orRaise _ _).bind (fun x => (readOnly_orRaise _ _).bind (fun t => ?_))
        split <;> trivial
      exact ht.bind (fun _ => trivial)
    · trivial

theorem readOnly_mesasCreate {s : Sessao} (hs : Ability.manageAll s=false) (p : MesaParams) :
    (MesasController.create s p).ReadOnly := by
  unfold MesasController.create
  split
  · trivial
  · have ha : (MesasController.aceitaVaga p).ReadOnly := by
      unfold MesasController.aceitaVaga
      split <;> trivial
    exact ha.bind (fun _ => readOnly_authorize_bind hs _)

/-- Of the requests of the queue only the enrolment gets past CanCan. -/
theorem Requisicao.readOnly {r : Requisicao} (hs : Ability.manageAll r.sessao=false)
    (hr : ∀ u m,r≠.inscrever u m) : r.prog.ReadOnly := by
  cases r with
  | inscrever u m => exact absurd rfl (hr u m)
  | filasProximo u i => exact (readOnly_setFila i).bind (fun _ => readOnly_authorize_bind hs _)
  | filasAnterior u i => exact (readOnly_setFila i).bind (fun _ => readOnly_authorize_bind hs _)
  | filasUpdateAtivo u i b => exact readOnly_negado (readOnly_setFila i) _ hs _
  | colegiadosProximo u c =>
    exact (readOnly_setColegiado c).bind (fun _ => readOnly_authorize_bind hs _)

/-- The routes that write nothing, whoever asks. -/
def Rota.leitura : Rota → Bool
  | .index _ _ => true
  | .new _ _ => true
  | .show_ _ _ _ => true
  | .edit _ _ _ => true
  | .colegiadosAnterior _ _ => true
  | .filasGeraEstatisticasTela _ _ => true
  | .filasGeraEstatisticasArquivo _ _ => true
  | .mesasEscolher _ _ => true
  | .mesasRemoverSelecao _ _ => true
  | .telaHome _ => true
  | .telaIndex _ => true
  | .telaDados _ => true
  | .telaPosicaoAluno _ _ => true
  | .importerIndex _ => true
  | _ => false

def Rota.importa : Rota → Bool
  | .importerImport _ _ _ _ => true
  | _ => false

theorem Rota.readOnly_of_leitura {r : Rota} (hr : r.leitura=true) : r.prog.ReadOnly := by
  cases r with
  | index c s => exact readOnly_index c s
  | new c s => exact readOnly_mostra (readOnly_ret ()) _ s
  | show_ c s i => exact readOnly_mostra (readOnly_achaLinha c i) _ s
  | edit c s i => exact readOnly_mostra (readOnly_achaLinha c i) _ s
  | colegiadosAnterior s i => exact readOnly_leitura (readOnly_setColegiado i) _ (fun _ => trivial)
  | filasGeraEstatisticasTela s i =>
    exact FilasController.every_geraEstatisticasTela (fun _ => rfl) s i
  | filasGeraEstatisticasArquivo s i =>
    exact FilasController.every_geraEstatisticasArquivo (fun _ => rfl) s i
  | mesasEscolher s i => exact readOnly_leitura (readOnly_acha _) _ (fun _ => trivial)
  | mesasRemoverSelecao s i =>
    cases i with
    | none => exact readOnly_leitura (readOnly_ret ()) _ (fun _ => trivial)
    | some i => exact readOnly_leitura (readOnly_acha _) _ (fun _ => trivial)
  | telaHome s => trivial
  | telaIndex s => trivial
  | telaDados s => trivial
  | telaPosicaoAluno s m => exact readOnly_posicaoAluno m
  | importerIndex s => exact readOnly_mostra (readOnly_ret ()) _ s
  | _ => cases hr

/-- Without `can :manage, :all` every other route stops at its filters. -/
theorem Rota.readOnly {r : Rota} (hs : Ability.manageAll r.sessao=false)
    (hr : ∀ u m,r≠.requisicao (.inscrever u m)) : r.prog.ReadOnly := by
  cases r with
  | requisicao r => exact Requisicao.readOnly hs (fun u m h => hr u m (congrArg _ h))
  | alunosCreate s p => exact readOnly_negado (readOnly_ret ()) _ hs _
  | alunosUpdate s i p => exact readOnly_negado (readOnly_acha _) _ hs _
  | alunosDestroy s i => exact readOnly_negado (readOnly_acha _) _ hs _
  | colegiadosCreate s p => exact readOnly_negado (readOnly_ret ()) _ hs _
  | colegiadosUpdate s i p => exact readOnly_negado (readOnly_setColegiado i) _ hs _
  | colegiadosDestroy s i => exact readOnly_negado (readOnly_setColegiado i) _ hs _
  | colegiadosEsvaziaMesa s i => exact readOnly_negado (readOnly_setColegiado i) _ hs _
  | filasCreate s p => exact readOnly_negado (readOnly_ret ()) _ hs _
  | filasUpdate s i p => exact readOnly_negado (readOnly_setFila i) _ hs _
  | filasDestroy s i => exact readOnly_negado (readOnly_setFila i) _ hs _
  | filasEsvaziaMesa s i => exact readOnly_negado (readOnly_acha _) _ hs _
  | mesasCreate s p => exact readOnly_mesasCreate hs p
  | mesasUpdate s i p => exact readOnly_negado (readOnly_acha _) _ hs _
  | mesasDestroy s i => exact readOnly_negado (readOnly_acha _) _ hs _
  | rodadasCreate s p => exact readOnly_negado (readOnly_ret ()) _ hs _
  | rodadasUpdate s i p => exact readOnly_negado (readOnly_acha _) _ hs _
  | rodadasDestroy s i => exact readOnly_negado (readOnly_acha _) _ hs _
  | vagasCreate s p => exact readOnly_negado (readOnly_ret ()) _ hs _
  | vagasUpdate s i p => exact readOnly_negado (readOnly_acha _) _ hs _
  | vagasDestroy s i => exact readOnly_negado (readOnly_acha _) _ hs _
  | importerImport s t g c => exact readOnly_authorize_bind hs _
  | _ => exact Rota.readOnly_of_leitura rfl

/-! What such a session leaves behind. -/

/-- The vagas of `d` and possibly further ones after them; every other table as it was. -/
structure Db.SoAcrescenta (d d' : Db) : Prop where
  alunos : d'.alunos=d.alunos
  alunosGrupos : d'.alunosGrupos=d.alunosGrupos
  colegiados : d'.colegiados=d.colegiados
  filas : d'.filas=d.filas
  grupos : d'.grupos=d.grupos
  mesas : d'.mesas=d.mesas
  rodadas : d'.rodadas=d.rodadas
  vagas : d.vagas.rows <+: d'.vagas.rows

namespace Db.SoAcrescenta

theorem refl (d : Db) : d.SoAcrescenta d := ⟨rfl,rfl,rfl,rfl,rfl,rfl,rfl,List.prefix_rfl⟩

theorem trans {a b c : Db} (hab : a.SoAcrescenta b) (hbc : b.SoAcrescenta c) :
    a.SoAcrescenta c where
  alunos := hbc.alunos.trans hab.alunos
  alunosGrupos := hbc.alunosGrupos.trans hab.alunosGrupos
  colegiados := hbc.colegiados.trans hab.colegiados
  filas := hbc.filas.trans hab.filas
  grupos := hbc.grupos.trans hab.grupos
  mesas := hbc.mesas.trans hab.mesas
  rodadas := hbc.rodadas.trans hab.rodadas
  vagas := hab.vagas.trans hbc.vagas

theorem insereVaga (d : Db) (a : Nat) (f : Option Nat) (n : Nat) (t : ℚ) :
    d.SoAcrescenta (d.insereVaga a f n t) :=
  ⟨rfl,rfl,rfl,rfl,rfl,rfl,rfl,List.prefix_append _ _⟩

end Db.SoAcrescenta

/-- The first rodada lets guests in, or the session's user has one of the two roles. -/
def PodeInscrever (d : Db) (u : Sessao) : Prop :=
  ∃ r,d.rodadas.rows.head?=some r ∧ (r.inscricaoGuest=some true ∨
    ∃ x,u.usuario=some x ∧ (x.supervisorRole=true ∨ x.userRole=true))

theorem podeInscrever_of_aberta {d : Db} {u : Sessao} (hs : Ability.manageAll u=false)
    (h : TelaController.Aberta d u) : PodeInscrever d u := by
  obtain ⟨r,hr,hg | ⟨hn,hm⟩⟩ := h
  · exact ⟨r,hr,Or.inl hg⟩
  · obtain ⟨x,hx⟩ := Option.ne_none_iff_exists'.mp hn
    have hx0 : x.superadminRole=false := by simpa [Ability.manageAll,hx] using hs
    have hm' : x.supervisorRole=true ∨ x.userRole=true := by
      simpa [Ability.manageInscricao,hx,hx0] using hm
    exact ⟨r,hr,Or.inr ⟨x,hx,hm'⟩⟩

theorem inscrever_soAcrescenta (s : World) (u : Sessao) (m : Option String) :
    s.db.SoAcrescenta ((TelaController.inscrever u m).exec s).state.db ∧
      (((TelaController.inscrever u m).exec s).state.db≠s.db → TelaController.Aberta s.db u) := by
  have hd := TelaController.desfecho u m s
  generalize ((TelaController.inscrever u m).exec s).result=r at hd
  generalize ((TelaController.inscrever u m).exec s).state.db=d at hd ⊢
  cases hd with
  | inscrito a g f t hu => exact ⟨.insereVaga _ _ _ _ _,fun _ => hu⟩
  | _ => exact ⟨.refl _,fun h => absurd rfl h⟩

/-- One request of a session that may not manage. -/
theorem Rota.soAcrescenta {r : Rota} (hs : Ability.manageAll r.sessao=false) (s : World) :
    s.db.SoAcrescenta (r.prog.exec s).state.db ∧ ((r.prog.exec s).state.db≠s.db →
      ∃ u m,r=.requisicao (.inscrever u m) ∧ PodeInscrever s.db u) := by
  by_cases hr : ∃ u m,r=.requisicao (.inscrever u m)
  · obtain ⟨u,m,rfl⟩ := hr
    obtain ⟨hv,ha⟩ := inscrever_soAcrescenta s u m
    exact ⟨hv,fun h => ⟨u,m,rfl,podeInscrever_of_aberta hs (ha h)⟩⟩
  · have he : (r.prog.exec s).state=s :=
      (Rota.readOnly hs (fun u m h => hr ⟨u,m,h⟩)).exec_state s
    rw [he]
    exact ⟨.refl _,fun h => absurd rfl h⟩

/-- Requests of sessions without `superadmin_role`. -/
def semSuperadmin (_ : World) (r : Rota) (_ : Outcome Evento World Erro Resposta) : Prop :=
  Ability.manageAll r.sessao=false

instance (s : World) (r : Rota) (o : Outcome Evento World Erro Resposta) :
    Decidable (semSuperadmin s r o) := inferInstanceAs (Decidable (_=false))

/-- However long such sessions go on, they only add vagas, and only through
`POST /tela/inscrever` while it is open to them. -/
theorem semSuperadmin_soAcrescenta {s₀ s : World} (h : Runs Rota.prog semSuperadmin s₀ s) :
    s₀.db.SoAcrescenta s.db ∧ ∀ r : Rota,Ability.manageAll r.sessao=false →
      (r.prog.exec s).state.db≠s.db →
        ∃ u m,r=.requisicao (.inscrever u m) ∧ PodeInscrever s.db u := by
  refine ⟨?_,fun r hr => (Rota.soAcrescenta hr s).2⟩
  refine h.invariant (fun s => s₀.db.SoAcrescenta s.db) (.refl _) ?_
  intro s r hi hr
  exact hi.trans (Rota.soAcrescenta hr s).1

/-- A guest enrols and a user without roles of note tries to delete the vaga; the next enrolment is
the only thing left to happen. -/
theorem semSuperadmin_cenario :
    let s₀ := Cenario.world Cenario.nova Table.empty
    let s := runAll Rota.prog s₀
      [.requisicao (Cenario.inscreve "a"),.vagasDestroy ⟨some {},none⟩ 1]
    s₀.db.SoAcrescenta s.db ∧ s.db.vagas.rows.length=1 ∧
      PodeInscrever s.db ⟨none,none⟩ := by
  have hr : Runs Rota.prog semSuperadmin (Cenario.world Cenario.nova Table.empty) _ :=
    Runs.start.append [.requisicao (Cenario.inscreve "a"),.vagasDestroy ⟨some {},none⟩ 1]
      (by decide +kernel)
  have h := semSuperadmin_soAcrescenta hr
  obtain ⟨u,m,he,hp⟩ := h.2 (.requisicao (Cenario.inscreve "b")) rfl (by decide +kernel)
  cases he
  exact ⟨h.1,by decide +kernel,hp⟩

end Sisfila
