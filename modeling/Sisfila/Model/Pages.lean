import Sisfila.Model.Resources

namespace Sisfila

/-! `app/views/tela/posicao_aluno.html.erb` and the action in front of it. The lines of the log file
are left out. -/

namespace TelaController

/-- What the page says about the place in the queue. -/
inductive Situacao where
  /-- "Você não está na fila." -/
  | naoEstaNaFila
  /-- "Está na sua vez!" -/
  | estaNaSuaVez
  /-- "Sua posição geral:", and under it the estimated wait and the time it leads to -/
  | posicaoGeral (posicao : Int) (estimativa : Option (ℚ × ℚ))
  deriving DecidableEq

/-- The instance variables of the action. -/
structure Variaveis where
  aluno : Aluno
  vaga : Option (Vaga × Fila)
  posicaoAluno : Option Int
  tempoestimado : ℚ
  horaestimada : ℚ

structure Pagina where
  nome : Option String
  ultimaSenha : Option String
  senha : Option String
  situacao : Situacao
  deriving DecidableEq

/-- `!@posicao_aluno` holds of nil only: every number, also -1, counts as true. -/
def situacao (x : Variaveis) : Situacao :=
  match x.posicaoAluno with
  | none => .naoEstaNaFila
  | some n =>
    if n=0 then .estaNaSuaVez
    else .posicaoGeral n (if 0<n then some (x.tempoestimado,x.horaestimada) else none)

/-- `@vaga&.fila&.vaga_atual` -/
def ultimaChamada : Option (Vaga × Fila) → Req (Option Vaga)
  | none => pure none
  | some (_,fila) => fila.vagaAtual

def posicaoAlunoHtml (x : Variaveis) : Req Pagina := do
  let atual ← ultimaChamada x.vaga
  pure {
    nome := x.aluno.nome
    ultimaSenha := atual.map (fun v => Vaga.codigo (x.vaga.map (fun y => y.2)) v.posicao)
    senha := x.vaga.map (fun y => Vaga.codigo (some y.2) y.1.posicao)
    situacao := situacao x }

/-- `Time.new(1970)`, which nobody sees, is the time 0. -/
def variaveis (a : Aluno) : Req Variaveis := do
  let vaga ← a.proximaVaga
  let lugar ← a.posicaoTotal
  if 0<lugar then do
    let tempo ← tempoEstimado vaga lugar
    let agora ← timeNow
    let mais ← tempoEstimado vaga lugar
    pure ⟨a,vaga,some lugar,tempo,agora+mais⟩
  else pure ⟨a,vaga,some lugar,0,0⟩

/-- `none` is the page of an unknown matricula. -/
def paginaPosicao (matricula : Option String) : Req (Option Pagina) := do
  let aluno ← consulta (fun d => d.alunos.rows.find? (fun a => a.matricula==matricula))
  match aluno with
  | none => pure none
  | some a => do
    let x ← variaveis a
    let p ← posicaoAlunoHtml x
    pure (some p)

end TelaController

/-! `app/views/tela/index.html.erb`: what the script of the screen makes of `Rodada.dados`. -/

namespace Telao

/-- A column in a JavaScript string: null is written out. -/
def texto (x : Option String) : String := x.getD "null"

/-- One desk on the screen. -/
structure Linha where
  mesa : String
  codigovaga : String
  nomealuno : String
  deriving DecidableEq

/-- The body of the loop. A desk whose vaga is gone is left out. A vaga without its fila or its aluno
has no such key in the payload, and the script ends in a TypeError. -/
def linha (d : Db) (m : Mesa) : Option (Option Linha) :=
  match m.vagaId.bind d.vagas.find with
  | none => some none
  | some v => do
    let fila ← d.filaDe v.filaId
    let aluno ← v.alunoId.bind d.alunos.find
    pure (some {
      mesa := texto m.nome
      codigovaga := "["++texto fila.codigo++"_"++texto (v.posicao.map toString)++"]"
      nomealuno := texto aluno.nome })

/-- The heading and the desks; after a TypeError (`none`) the desks are not drawn. -/
def atualizaPaginaRealmente (d : Db) : Option (Option String × List Linha) := do
  let rodada ← d.rodadas.rows.head?
  let ls ← d.anunciadas.mapM (linha d)
  pure (rodada.descricao,ls.reduceOption)

end Telao

namespace Dbl

def mul : Dbl → Dbl → Dbl
  | .num a,.num b => .num (a*b)
  | .num a,.inf n => if a=0 then .nan else .inf (n ^^ decide (a<0))
  | .inf n,.num b => if b=0 then .nan else .inf (n ^^ decide (b<0))
  | .inf n,.inf k => .inf (n ^^ k)
  | .nan,_ => .nan
  | _,.nan => .nan

def sub : Dbl → Dbl → Dbl
  | .num a,.num b => .num (a-b)
  | .num _,.inf n => .inf (!n)
  | .inf n,.num _ => .inf n
  | .inf n,.inf k => if n=k then .nan else .inf n
  | .nan,_ => .nan
  | _,.nan => .nan

/-- `x > 0` -/
def positivo : Dbl → Bool
  | .num q => decide (0<q)
  | .inf n => !n
  | .nan => false

end Dbl

/-! The statistics of `app/controllers/filas_controller.rb`, on the screen and in a file. -/

/-- What both report. A duration is what `Duration.build` is given; a time that is nil is printed as
the year 1970, and an `nmcf` that is none as "Não calculado". -/
structure Relatorio where
  npaguardando : Option Int
  npatendidas : Option Int
  nptotal : Option Int
  tmespera : ℚ
  tmpatdfila : ℚ
  nmcf : Option Dbl
  prifila : ℚ
  ultfila : ℚ
  priatendida : Option ℚ
  ultatendida : Option ℚ
  intensidadefila : Dbl
  deriving DecidableEq

namespace FilasController

/-- `ActiveSupport::Duration.build(x)`: `nil.to_f` is 0, and only finite numbers can be divided
into parts. -/
def duracao : Option Dbl → Req ℚ
  | none => pure 0
  | some (.num q) => pure q
  | some _ => .raise .floatDomainError

/-- `(lambda * lambda) / (mi * (mi - lambda))`, if that is above 0 -/
def nmcf (fila : Fila) : Req (Option Dbl) := do
  let l ← orRaise .noMethodError fila.lambda
  let m ← orRaise .noMethodError fila.mi
  let x := Dbl.div (Dbl.mul l l) (Dbl.mul m (Dbl.sub m l))
  pure (if x.positivo then some x else none)

/-- `3600 * (lambda / (mi * (mi - lambda)))`, as a duration if that is above 0 -/
def tme (fila : Fila) : Req ℚ := do
  let m ← orRaise .noMethodError fila.mi
  let l ← orRaise .typeError fila.lambda
  let x := Dbl.scale 3600 (Dbl.div l (Dbl.mul m (Dbl.sub m l)))
  if x.positivo then duracao (some x) else duracao (some (.num 0))

/-- `lambda / mi` -/
def intensidadefila (fila : Fila) : Req Dbl := do
  let l ← orRaise .noMethodError fila.lambda
  let m ← orRaise .typeError fila.mi
  pure (Dbl.div l m)

/-- `Vaga.where(fila_id: ...).all[n - 1]`, then a method of the row -/
def vagaNoIndice (fila : Fila) (n : Int) : Req Vaga := do
  let comp ← consulta (fun d => d.vagasDe (some fila.id))
  orRaise .noMethodError comp[(n-1).toNat]?

/-- The measured waiting time, read from the fila again. -/
def tela (fila : Fila) (n : Int) : Req Relatorio := do
  let ultima ← Mesa.leFila (some fila.id)
  let tmespera ← duracao ultima.tempomedioespera
  let lida ← acha (fun d => d.filas.find fila.id)
  let tmpatdfila ← duracao lida.tempoatendimento
  let nmcf ← nmcf fila
  let prifila ← Mesa.primeiraVaga (some fila.id)
  let ultfila ← Mesa.ultimaVaga (some fila.id)
  let priatendida ← Mesa.primeiraVaga (some fila.id)
  let ultatendida ← vagaNoIndice fila n
  let intensidadefila ← intensidadefila fila
  pure {
    npaguardando := fila.npaguardando, npatendidas := fila.npatendidas, nptotal := fila.nptotal
    tmespera := tmespera, tmpatdfila := tmpatdfila, nmcf := nmcf
    prifila := prifila.createdAt, ultfila := ultfila.createdAt
    priatendida := priatendida.dataChamada, ultatendida := ultatendida.dataChamada
    intensidadefila := intensidadefila }

/-- The waiting time of queueing theory. -/
def arquivo (fila : Fila) (n : Int) : Req Relatorio := do
  let tmespera ← tme fila
  let lida ← acha (fun d => d.filas.find fila.id)
  let tmpatdfila ← duracao lida.tempoatendimento
  let nmcf ← nmcf fila
  let prifila ← Mesa.primeiraVaga (some fila.id)
  let ultfila ← Mesa.ultimaVaga (some fila.id)
  let priatendida ← Mesa.primeiraVaga (some fila.id)
  let ultatendida ← vagaNoIndice fila n
  let intensidadefila ← intensidadefila fila
  pure {
    npaguardando := fila.npaguardando, npatendidas := fila.npatendidas, nptotal := fila.nptotal
    tmespera := tmespera, tmpatdfila := tmpatdfila, nmcf := nmcf
    prifila := prifila.createdAt, ultfila := ultfila.createdAt
    priatendida := priatendida.dataChamada, ultatendida := ultatendida.dataChamada
    intensidadefila := intensidadefila }

/-- `(@fila.posicao <= 2) || (@fila.npatendidas <= 2)` goes back to the fila. -/
def comGuarda (corpo : Fila → Int → Req Relatorio) (s : Sessao) (i : Nat) :
    Req (Option Relatorio) := do
  let fila ← acha (fun d => d.filas.find i)
  authorize s
  if fila.posicao≤2 then pure none
  else do
    let n ← orRaise .noMethodError fila.npatendidas
    if n≤2 then pure none
    else do
      let r ← corpo fila n
      pure (some r)

def geraEstatisticasTela : Sessao → Nat → Req (Option Relatorio) := comGuarda tela

def geraEstatisticasArquivo : Sessao → Nat → Req (Option Relatorio) := comGuarda arquivo

/-- Both answer with the fila or with the report, which is shown or written to a file. -/
def responde (relatorio : Req (Option Relatorio)) : Req Resposta := do
  match ← relatorio with
  | none => pure (.redireciona none)
  | some _ => pure .pagina

end FilasController

end Sisfila
