import Sisfila.Model.Controllers
import Sisfila.Model.Records

namespace Sisfila

/-! What the six resource controllers have in common. -/

/-- `find`, which raises when there is no such row. -/
def acha {ρ : Type} (q : Db → Option ρ) : Req ρ := do
  let r ← consulta q
  orRaise .recordNotFound r

/-- An action that shows rows. What the page says is not modelled. -/
def mostra {ρ : Type} (achar : Req ρ) (entrada : Bool) (s : Sessao) : Req Resposta :=
  comFiltros achar entrada s (fun _ => pure .pagina)

def cria (entrada : Bool) (s : Sessao) (valida : Db → Bool) (insere : Db → Db)
    (aviso : String) : Req Resposta :=
  comFiltros (pure ()) entrada s (fun _ => do
    let ok ← consulta valida
    if ok then do
      grava insere
      pure (.redireciona (some aviso))
    else pure .nova)

def atualiza {ρ : Type} (achar : Req ρ) (entrada : Bool) (s : Sessao) (valida : ρ → Db → Bool)
    (escrita : ρ → Db → Db) (aviso : String) : Req Resposta :=
  comFiltros achar entrada s (fun r => do
    let ok ← consulta (valida r)
    if ok then do
      grava (escrita r)
      pure (.redireciona (some aviso))
    else pure .edita)

def apaga {ρ : Type} (achar : Req ρ) (entrada : Bool) (s : Sessao) (escrita : ρ → Db → Db)
    (aviso : String) : Req Resposta :=
  comFiltros achar entrada s (fun r => do
    grava (escrita r)
    pure (.redireciona (some aviso)))

/-- Both `esvazia_mesa` actions end alike. -/
def esvaziaMesa (s : Sessao) : Req Resposta := do
  Mesa.associaVagaAMesa none s.mesa
  notifica
  pure (.redireciona none)

/-! `app/controllers/alunos_controller.rb` -/

namespace AlunosController

def setAluno (i : Nat) : Req Aluno := acha (fun d => d.alunos.find i)

/-- `params.require(:aluno).permit(...)` drops the colegiado. -/
def alunoParams (f : AlunoForm) : AlunoParams := f.toAlunoParams

def create (s : Sessao) (p : AlunoParams) : Req Resposta :=
  cria false s (fun d => d.alunoValido (p.novo d.alunos.next)) (fun d => d.insereAluno p)
    "O Aluno foi criado com sucesso."

def update (s : Sessao) (i : Nat) (p : AlunoParams) : Req Resposta :=
  atualiza (setAluno i) false s (fun a d => d.alunoValido (p.atribui a))
    (fun a d => d.atualizaAluno a.id p) "O Aluno foi atualizado com sucesso."

def destroy (s : Sessao) (i : Nat) : Req Resposta :=
  apaga (setAluno i) false s (fun a d => d.apagaAluno a.id) "O Aluno foi apagado com sucesso."

end AlunosController

/-! `app/controllers/colegiados_controller.rb`, without `proximo` -/

namespace ColegiadosController

def create (s : Sessao) (p : ColegiadoParams) : Req Resposta :=
  cria false s (fun _ => true) (fun d => d.insereColegiado p) "O Colegiado foi criado com sucesso."

def update (s : Sessao) (i : Nat) (p : ColegiadoParams) : Req Resposta :=
  atualiza (setColegiado i) false s (fun _ _ => true) (fun c d => d.atualizaColegiado c.id p)
    "O Colegiado foi atualizado com sucesso."

def destroy (s : Sessao) (i : Nat) : Req Resposta :=
  apaga (setColegiado i) false s (fun c d => d.apagaColegiado c.id)
    "O Colegiado foi apagado com sucesso."

def anterior (s : Sessao) (i : Nat) : Req Resposta :=
  comFiltros (setColegiado i) false s (fun _ => .raise .notImplemented)

def esvaziaMesa (s : Sessao) (i : Nat) : Req Resposta :=
  comFiltros (setColegiado i) false s (fun _ => Sisfila.esvaziaMesa s)

end ColegiadosController

/-! `app/controllers/rodadas_controller.rb` -/

namespace RodadasController

def setRodada (i : Nat) : Req Rodada := acha (fun d => d.rodadas.find i)

def create (s : Sessao) (p : RodadaParams) : Req Resposta :=
  cria true s (fun _ => true) (fun d => d.insereRodada p) "A Rodada foi criada com sucesso."

def update (s : Sessao) (i : Nat) (p : RodadaParams) : Req Resposta :=
  atualiza (setRodada i) true s (fun _ _ => true) (fun r d => d.atualizaRodada r.id p)
    "A Rodada foi atualizada com sucesso."

def destroy (s : Sessao) (i : Nat) : Req Resposta :=
  apaga (setRodada i) true s (fun r d => d.apagaRodada r.id) "A Rodada foi apagada com sucesso."

end RodadasController

/-! `app/controllers/mesas_controller.rb` -/

namespace MesasController

def setMesa (i : Nat) : Req Mesa := acha (fun d => d.mesas.find i)

def aceitaVaga (p : MesaParams) : Req Unit :=
  if p.vagaAceita then pure () else .raise .associationTypeMismatch

/-- CanCan builds the desk from the parameters before it asks for the ability. -/
def create (s : Sessao) (p : MesaParams) : Req Resposta :=
  if s.usuario.isNone then pure .entrar
  else do
    aceitaVaga p
    authorize s
    let agora ← timeNow
    grava (fun d => d.insereMesa p agora)
    pure (.redireciona (some "A Mesa foi criada com sucesso."))

def update (s : Sessao) (i : Nat) (p : MesaParams) : Req Resposta :=
  comFiltros (setMesa i) true s (fun m => do
    aceitaVaga p
    let agora ← timeNow
    grava (fun d => d.atualizaMesa m.id p agora)
    pure (.redireciona (some "A Mesa foi atualizada com sucesso.")))

def destroy (s : Sessao) (i : Nat) : Req Resposta :=
  apaga (setMesa i) true s (fun m d => d.apagaMesa m.id) "A Mesa foi apagada com sucesso."

/-- The desk goes into the session, not into the tables. -/
def escolher (s : Sessao) (i : Nat) : Req Resposta :=
  comFiltros (setMesa i) true s (fun m => pure (.mesa (some m.id)))

/-- The same assignment; the route has no `:id` of its own, and without one CanCan loads no row. -/
def removerSelecao (s : Sessao) : Option Nat → Req Resposta
  | none => comFiltros (pure ()) true s (fun _ => pure (.mesa none))
  | some i => escolher s i

end MesasController

/-! `app/controllers/filas_controller.rb`, without the calls -/

namespace FilasController

/-- After the INSERT a vaga at the pointer of the new fila would be put on the desk by `@fila.vaga`,
a method that does not exist. -/
def criaFila [ActsAsList Fila] (p : FilaParams) : Req Resposta :=
  if p.posicao=some none then .raise .notNullViolation
  else do
    let n ← consulta (fun d => d.filas.next)
    grava (fun d => d.insereFila p)
    let vaga ← consulta (fun d =>
      (d.vagasDe (some n)).find? (fun v => v.posicao==some (p.nova n).posicao))
    match vaga with
    | some _ => .raise .noMethodError
    | none => pure (.redireciona (some "A Fila foi criada com successo."))

/-- `params.require(:fila).permit(...)` drops the colegiado. -/
def filaParams (f : FilaForm) : FilaParams := f.toFilaParams

def create [ActsAsList Fila] (s : Sessao) (p : FilaParams) : Req Resposta :=
  comFiltros (pure ()) false s (fun _ => do
    let ok ← consulta (fun d => d.filaValida (p.nova d.filas.next).toFilaBase)
    if ok then criaFila p else pure .nova)

/-- `acts_as_list` reloads the row before it destroys it. -/
def destroy [ActsAsList Fila] (s : Sessao) (i : Nat) : Req Resposta :=
  comFiltros (setFila i) false s (fun fila => do
    let fila ← acha (fun d => d.filas.find fila.id)
    grava (fun d => d.apagaFila fila)
    pure (.redireciona (some "A Fila foi apagada com sucesso.")))

/-- `set_fila` does not list this action; CanCan loads the row. -/
def esvaziaMesa (s : Sessao) (i : Nat) : Req Resposta :=
  comFiltros (acha (fun d => d.filas.find i)) false s (fun _ => Sisfila.esvaziaMesa s)

end FilasController

/-! `app/controllers/vagas_controller.rb` -/

namespace VagasController

def setVaga (i : Nat) : Req Vaga := acha (fun d => d.vagas.find i)

def index (s : Sessao) : Req Resposta :=
  comFiltros (pure ()) false s (fun _ => do
    let rodada ← consulta (fun d => d.rodadas.rows.head?)
    let _ ← orRaise .noMethodError rodada
    pure .pagina)

def criaVaga [ActsAsList Vaga] (p : VagaParams) : Req Resposta := do
  let agora ← timeNow
  let n ← consulta (fun d => d.vagas.next)
  grava (fun d => d.insereVagaNova p agora)
  let vaga ← setVaga n
  grava (fun d => d.setListPosition vaga p.posicao.join)
  pure (.redireciona (some "A Vaga foi criada com sucesso."))

/-- `params.require(:vaga).permit(...)` drops the fila. -/
def vagaParams (f : VagaForm) : VagaParams := f.toVagaParams

def create [ActsAsList Vaga] (s : Sessao) (p : VagaParams) : Req Resposta :=
  comFiltros (pure ()) true s (fun _ => do
    let ok ← consulta (fun d => d.vagaValida (p.nova 0 d.vagas.next).toVagaBase)
    if ok then criaVaga p else pure .nova)

/-- Two saves: the columns, then the position. -/
def gravaVaga [ActsAsList Vaga] (vaga : Vaga) (p : VagaParams) : Req Resposta := do
  grava (fun d => d.atualizaVaga vaga.id p)
  grava (fun d => d.setListPosition (p.atribui vaga) p.posicao.join)
  pure (.redireciona (some "A Vaga foi atualizada com successo."))

def update [ActsAsList Vaga] (s : Sessao) (i : Nat) (p : VagaParams) : Req Resposta :=
  comFiltros (setVaga i) true s (fun vaga => do
    let ok ← consulta (fun d => d.vagaValida (p.atribuiBase vaga.toVagaBase))
    if ok then gravaVaga vaga p else pure .edita)

/-- The log line needs the name of the aluno before anything is destroyed; `acts_as_list` then
reloads the row. -/
def destroy [ActsAsList Vaga] (s : Sessao) (i : Nat) : Req Resposta :=
  comFiltros (setVaga i) true s (fun vaga => do
    let aluno ← consulta (fun d => vaga.alunoId.bind d.alunos.find)
    let _ ← orRaise .noMethodError aluno
    let vaga ← setVaga vaga.id
    grava (fun d => d.apagaVaga vaga)
    pure (.redireciona (some "A Vaga foi apagada com successo.")))

end VagasController

/-! `app/controllers/tela_controller.rb`, without `inscrever` -/

namespace TelaController

def tempoEstimado (vaga : Option (Vaga × Fila)) (lugar : Int) : Req ℚ := do
  let (_,fila) ← orRaise .noMethodError vaga
  let t ← orRaise .typeError fila.tempoatendimento
  match Dbl.scale lugar t with
  | .num q => pure q
  | _ => .raise .floatDomainError

def posicaoAluno (matricula : Option String) : Req Resposta := do
  let aluno ← consulta (fun d => d.alunos.rows.find? (fun a => a.matricula==matricula))
  match aluno with
  | none => pure .naoEncontrado
  | some a => do
    let vaga ← a.proximaVaga
    let lugar ← a.posicaoTotal
    if 0<lugar then do
      let tempo ← tempoEstimado vaga lugar
      pure (.posicao lugar tempo)
    else pure (.posicao lugar 0)

end TelaController

end Sisfila
