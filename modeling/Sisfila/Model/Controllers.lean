import Sisfila.Model.Models
import Sisfila.Model.Records

namespace Sisfila

structure Usuario where
  superadminRole : Bool := false
  supervisorRole : Bool := false
  userRole : Bool := true
  deriving DecidableEq

structure Sessao where
  usuario : Option Usuario
  mesa : Option Nat
  deriving DecidableEq

/-- What a modelled action answers. -/
inductive Resposta where
  | json (status : Nat) (mensagem : String)
  /-- 200 of `inscrever`: the aluno and the code of the vaga -/
  | inscrito (aluno : Aluno) (posicao : String)
  /-- `authenticate_user!` sends a visitor to the sign-in page -/
  | entrar
  | redireciona (aviso : Option String)
  /-- the edit form again, after a failed validation -/
  | edita
  /-- the form of a new row again -/
  | nova
  /-- a page or a list that only shows rows -/
  | pagina
  | naoEncontrado
  /-- the position page: the place in the queue and the estimated wait in seconds -/
  | posicao (lugar : Int) (tempo : ℚ)
  /-- the desk the session has from now on -/
  | mesa (id : Option Nat)
  /-- what the importer printed -/
  | importado (saida : String)
  deriving DecidableEq

/-! `app/models/ability.rb` -/

namespace Ability

/-- `can :manage, :all`; a guest is `User.new`, which no `superadmin_role` has. -/
def manageAll (s : Sessao) : Bool := (s.usuario.getD {}).superadminRole

def manageInscricao (s : Sessao) : Bool :=
  let u := s.usuario.getD {}
  u.superadminRole || u.supervisorRole || u.userRole

end Ability

/-- `load_and_authorize_resource` -/
def authorize (s : Sessao) : Req Unit :=
  if Ability.manageAll s then pure () else .raise .accessDenied

/-- The filters in their order: the row, then `authenticate_user!` in the controllers that have it
(`entrada`), then CanCan. -/
def comFiltros {ρ : Type} (achar : Req ρ) (entrada : Bool) (s : Sessao)
    (acao : ρ → Req Resposta) : Req Resposta := do
  let r ← achar
  if entrada && s.usuario.isNone then pure .entrar
  else do
    authorize s
    acao r

/-- Both controllers broadcast the same payload. -/
def notifica : Req Unit := le (fun d => .difunde d.dados) (fun _ => ())

/-! `app/controllers/filas_controller.rb` -/

namespace FilasController

def setFila (i : Nat) : Req Fila := do
  let fila ← carrega (fun d => d.filas.find i)
  orRaise .recordNotFound fila

/-- Only equality with the count stops the pointer. -/
def chama (fila : Fila) (n : Nat) (s : Sessao) : Req Unit :=
  if fila.posicao=n then Mesa.associaVagaAMesa none s.mesa else fila.chamaProximo s.mesa 1

def proximo (s : Sessao) (i : Nat) : Req Resposta := do
  let fila ← setFila i
  authorize s
  let n ← consulta (fun d => d.contaVagas fila.id)
  chama fila n s
  notifica
  pure (.redireciona none)

def anterior (s : Sessao) (i : Nat) : Req Resposta := do
  let fila ← setFila i
  authorize s
  fila.chamaProximo s.mesa (-1)
  notifica
  pure (.redireciona none)

def gravaFila [ActsAsList Fila] (fila : Fila) (p : FilaParams) : Req Resposta :=
  if p.posicao=some none then .raise .notNullViolation
  else do
    grava (fun d => d.atualizaFila fila p)
    pure (.redireciona (some "A Fila foi atualizada com sucesso."))

def update [ActsAsList Fila] (s : Sessao) (i : Nat) (p : FilaParams) : Req Resposta :=
  comFiltros (setFila i) false s (fun fila => do
    let ok ← consulta (fun d => d.filaValida fila.toFilaBase)
    if ok then gravaFila fila p else pure .edita)

end FilasController

/-! `app/controllers/colegiados_controller.rb` -/

namespace ColegiadosController

def setColegiado (i : Nat) : Req Colegiado := do
  let c ← consulta (fun d => d.colegiados.find i)
  orRaise .recordNotFound c

def semMesa : Resposta := .redireciona (some "É preciso selecionar uma mesa antes.")

/-- `if not mesa_atual.esta_vazia?` -/
def esvazia (mesa : Mesa) (s : Sessao) : Req Unit := do
  let vaga ← consulta (fun d => mesa.vagaId.bind d.vagas.find)
  match vaga with
  | none => pure ()
  | some _ => do
    Mesa.associaVagaAMesa none s.mesa
    notifica

/-- The second count is compared with the `posicao` already loaded. -/
def chama (fila : Fila) (mesa : Mesa) (s : Sessao) : Req Unit := do
  let n ← consulta (fun d => d.contaVagas fila.id)
  if fila.posicao=n then esvazia mesa s
  else do
    fila.chamaProximo s.mesa 1
    notifica

def atende (fila : Option Fila) (mesa : Mesa) (s : Sessao) : Req Unit :=
  match fila with
  | some fila => chama fila mesa s
  | none => esvazia mesa s

def proximo (s : Sessao) (i : Nat) : Req Resposta := do
  let c ← setColegiado i
  authorize s
  let mesa ← consulta (fun d => s.mesa.bind d.mesas.find)
  match mesa with
  | none => pure semMesa
  | some mesa => do
    let fila ← Colegiado.proximaFilaNaoVazia c.id
    atende fila mesa s
    pure (.redireciona none)

end ColegiadosController

/-! `app/controllers/tela_controller.rb` -/

namespace TelaController

/-- Whole units of `p` seconds and the rest. -/
def parte (r p : ℚ) : Int × ℚ := ((r/p).floor,r-p*(r/p).floor)

/-- `ActiveSupport::Duration.build(q).parts`: hours, minutes and seconds are what is left after
years, months, weeks and days. -/
def duracao (q : ℚ) : Int × Int × ℚ :=
  let dias := [31556952,2629746,604800,86400].foldl (fun r p => (parte r p).2) q
  let horas := parte dias 3600
  let minutos := parte horas.2 60
  (horas.1,minutos.1,minutos.2)

/-- `format("%.0f", q)`: to the nearest integer, halves to even. -/
def arredonda (q : ℚ) : Int :=
  let n := q.floor
  if q-n<1/2 then n else if 1/2<q-n then n+1 else if n%2=0 then n else n+1

def mensagemNaFila (codigo : String) (q : ℚ) : String :=
  let (horas,minutos,segundos) := duracao q
  "Você já estava na fila! (posição: "++codigo++"). Tempo estimado para o seu atendimento: "++
    toString horas++" hora(s), "++toString minutos++" minuto(s) e "++
    toString (arredonda segundos)++" segundo(s)."

/-- The answer to an aluno who already has a vaga at or past the pointer. -/
def jaNaFila (vaga : Vaga) (fila : Fila) : Req Resposta := do
  if vaga.posicao=some fila.posicao then pure (.json 405 "Já está na sua vez!")
  else do
    let p ← orRaise .noMethodError vaga.posicao
    let t ← orRaise .typeError fila.tempoatendimento
    match Dbl.scale (p-fila.posicao) t with
    | .num q => pure (.json 405 (mensagemNaFila (Vaga.codigo (some fila) vaga.posicao) q))
    | _ => .raise .floatDomainError

def inscreve (a : Aluno) (g : Grupo) : Req Resposta := do
  match ← a.proximaVaga with
  | some (vaga,fila) => jaNaFila vaga fila
  | none => do
    let (fila,posicao) ← Vaga.create a g.filaId
    pure (.inscrito a (Vaga.codigo fila posicao))

/-- From the matricula on, once the session may enrol. -/
def inscreveMatricula (matricula : Option String) : Req Resposta := do
  let aluno ← consulta (fun d => d.alunos.rows.find? (fun a => a.matricula==matricula))
  match aluno with
  | none => pure (.json 405 "Número de matrícula não encontrado. (Cód. de Erro: 11)")
  | some a =>
    if a.ativo≠some true then
      pure (.json 405 "Número de matrícula não encontrado. (Cód. de Erro: 99)")
    else do
      let emGrupo ← a.estaEmAlgumGrupo
      if emGrupo=false then
        pure (.json 405 "Número de matrícula não encontrado. (Cód. de Erro: 42)")
      else do
        match ← a.primeiroGrupoAtivoComFilaAtiva with
        | none => pure (.json 405 "Matrícula não habilitada para este horário. (Cód. de Erro: 27)")
        | some g => inscreve a g

def inscrever (s : Sessao) (matricula : Option String) : Req Resposta := do
  let rodada ← consulta (fun d => d.rodadas.rows.head?)
  let r ← orRaise .noMethodError rodada
  if r.inscricaoGuest=some true then inscreveMatricula matricula
  else if s.usuario=none then pure .entrar
  else if Ability.manageInscricao s then inscreveMatricula matricula
  else pure (.json 403 "Você não tem permissão.")

end TelaController

/-- The requests of the queue. -/
inductive Requisicao where
  | inscrever (s : Sessao) (matricula : Option String)
  | filasProximo (s : Sessao) (fila : Nat)
  | filasAnterior (s : Sessao) (fila : Nat)
  /-- the update form with `ativo` as its only parameter -/
  | filasUpdateAtivo (s : Sessao) (fila : Nat) (ativo : Option Bool)
  | colegiadosProximo (s : Sessao) (colegiado : Nat)

def Requisicao.prog [ActsAsList Fila] : Requisicao → Req Resposta
  | .inscrever s m => TelaController.inscrever s m
  | .filasProximo s i => FilasController.proximo s i
  | .filasAnterior s i => FilasController.anterior s i
  | .filasUpdateAtivo s i b => FilasController.update s i { ativo := some b }
  | .colegiadosProximo s i => ColegiadosController.proximo s i

/-- The requests of one client, each sent after the answer to the one before. -/
def Requisicao.sucessivas [ActsAsList Fila] : List Requisicao → Req Unit
  | [] => pure ()
  | r::rs => do
    let _ ← r.prog
    sucessivas rs

end Sisfila
