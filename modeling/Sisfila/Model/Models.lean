import Sisfila.Model.Statements

namespace Sisfila

/-! `app/models/mesa.rb` -/

namespace Mesa

/-- `Vaga.where(fila_id: f).last`, then a method of the row. -/
def ultimaVaga (f : Option Nat) : Req Vaga := do
  let v ← consulta (fun d => (d.vagasDe f).getLast?)
  orRaise .noMethodError v

def primeiraVaga (f : Option Nat) : Req Vaga := do
  let v ← consulta (fun d => (d.vagasDe f).head?)
  orRaise .noMethodError v

/-- `Fila.where(id: f).first` or `.last`, then a method of the row. -/
def leFila (f : Option Nat) : Req Fila := do
  let v ← consulta (fun d => d.filaDe f)
  orRaise .noMethodError v

/-- The vagas of the aluno at the same `posicao`, whatever their fila. -/
def marcaChamada (vaga : Vaga) : Req Unit := do
  let agora ← timeNow
  grava (fun d => d.updateVagas (fun w => w.alunoId==vaga.alunoId && w.posicao==vaga.posicao)
    (fun c => { c with dataChamada := some agora }))

/-- The three counters; returns `npat` and `nptt`. -/
def contaPessoas (vaga : Vaga) : Req (Int × Option Int) := do
  let ultima ← ultimaVaga vaga.filaId
  let total ← orRaise .noMethodError ultima.posicao
  let npat ← orRaise .typeError vaga.posicao
  grava (fun d => d.updateFila vaga.filaId (fun e => { e with npaguardando := some (total-npat) }))
  grava (fun d => d.updateFila vaga.filaId (fun e => { e with npatendidas := some npat }))
  let ultima ← ultimaVaga vaga.filaId
  grava (fun d => d.updateFila vaga.filaId (fun e => { e with nptotal := ultima.posicao }))
  pure (npat,ultima.posicao)

def registraTempoNaFila (vaga : Vaga) : Req Unit := do
  let agora ← timeNow
  grava (fun d => d.updateVagas (fun w => w.id==vaga.id)
    (fun c => { c with temponafila := some (truncate (agora-vaga.createdAt)) }))

/-- The first call, unless it is also the last, opens the measurement. -/
def abreMedicao (vaga : Vaga) (npat : Int) (nptt : Option Int) : Req Unit :=
  if npat=1 ∧ some npat≠nptt then do
    grava (fun d => d.updateFila vaga.filaId (fun e => { e with realizarcalculo := some true }))
    let agora ← timeNow
    grava (fun d => d.updateFila vaga.filaId (fun e => { e with tiatendimento := some agora }))
  else pure ()

/-- `(tfatendimento - tiatendimento) / (npat - 1)` from the third call on. -/
def calculaAtendimento (vaga : Vaga) (npat : Int) : Req Unit := do
  let agora ← timeNow
  grava (fun d => d.updateFila vaga.filaId (fun e => { e with tfatendimento := some agora }))
  let fila ← leFila vaga.filaId
  let tf ← orRaise .noMethodError fila.tfatendimento
  let fila ← leFila vaga.filaId
  let ti ← orRaise .typeError fila.tiatendimento
  grava (fun d => d.updateFila vaga.filaId (fun e =>
    { e with tempoatendimento := some (Dbl.div (.num (tf-ti)) (.num ((npat-1 : Int) : ℚ))) }))

def mede (vaga : Vaga) (npat : Int) (nptt : Option Int) : Req Unit :=
  if 2<npat ∧ some npat≠nptt then do
    let fila ← leFila vaga.filaId
    if fila.realizarcalculo=some true then calculaAtendimento vaga npat else pure ()
  else pure ()

/-- The last call closes the measurement. -/
def fechaMedicao (vaga : Vaga) (npat : Int) (nptt : Option Int) : Req Unit :=
  if some npat=nptt then
    grava (fun d => d.updateFila vaga.filaId (fun e => { e with realizarcalculo := some false }))
  else pure ()

/-- Arrivals per hour. -/
def calculaLambda (vaga : Vaga) (nptt : Option Int) : Req Unit := do
  let ultima ← ultimaVaga vaga.filaId
  let primeira ← primeiraVaga vaga.filaId
  let n ← orRaise .typeError nptt
  grava (fun d => d.updateFila vaga.filaId (fun e =>
    { e with lambda := some (Dbl.div (.num 3600)
        (Dbl.div (.num (ultima.createdAt-primeira.createdAt)) (.num (n : ℚ)))) }))

/-- Calls per hour: `3600 / tempoatendimento`. -/
def calculaMi (vaga : Vaga) : Req Unit := do
  let fila ← leFila vaga.filaId
  let t ← orRaise .typeError fila.tempoatendimento
  grava (fun d => d.updateFila vaga.filaId (fun e => { e with mi := some (Dbl.div (.num 3600) t) }))

/-- `Vaga.where(fila_id: f).where("temponafila > 0")` -/
def esperaram (f : Option Nat) (d : Db) : List Vaga :=
  (d.vagasDe f).filter (fun v => decide (∃ t ∈ v.temponafila,0<t))

/-- The accumulator loop: `todasvagas[a-1].temponafila` for `a` in `1..n`. -/
def somaTempos (todas : List Vaga) (n : Nat) : Req Int :=
  (List.range n).foldlM (fun aux a => do
    let v ← orRaise .noMethodError todas[a]?
    let t ← orRaise .typeError v.temponafila
    pure (aux+t)) 0

/-- `vaga.fila` is the fila the vaga was found through, so it takes no query. -/
def calculaTempoMedio (vaga : Vaga) : Req Unit := do
  let n ← consulta (fun d => (esperaram vaga.filaId d).length)
  let todas ← consulta (esperaram vaga.filaId)
  let aux ← somaTempos todas n
  let n ← consulta (fun d => (esperaram vaga.filaId d).length)
  if n=0 then .raise .zeroDivisionError
  else grava (fun d => d.updateFila vaga.filaId (fun e =>
    { e with tempomedioespera := some (.num ((Int.fdiv aux n : Int) : ℚ)) }))

/-- Everything `associa_vaga_a_mesa` does with a vaga before it looks at the desk. -/
def registraChamada (vaga : Vaga) : Req Unit := do
  marcaChamada vaga
  let (npat,nptt) ← contaPessoas vaga
  registraTempoNaFila vaga
  abreMedicao vaga npat nptt
  mede vaga npat nptt
  fechaMedicao vaga npat nptt
  calculaLambda vaga nptt
  calculaMi vaga
  calculaTempoMedio vaga

/-- The desk is written last, and only if it exists. -/
def ocupaMesa (vaga : Option Vaga) (idMesa : Option Nat) : Req Unit := do
  let mesa ← consulta (fun d => idMesa.bind d.mesas.find)
  match mesa with
  | none => pure ()
  | some m => do
    let agora ← timeNow
    escreve (fun _ => .associa m.id (vaga.map (·.id)))
      (fun d => d.ocupa m (vaga.map (·.id)) agora)

/-- `if (a != nil)`: without a vaga only the desk is touched. -/
def registra : Option Vaga → Req Unit
  | none => pure ()
  | some v => registraChamada v

def associaVagaAMesa (vaga : Option Vaga) (idMesa : Option Nat) : Req Unit := do
  registra vaga
  ocupaMesa vaga idMesa

end Mesa

/-! `app/models/fila.rb` -/

namespace Fila

def vagaAtual (fila : Fila) : Req (Option Vaga) :=
  consulta (fun d => (d.vagasDe (some fila.id)).find? (fun v => v.posicao==some fila.posicao))

/-- `increment!`: the stored pointer moves by `n` from wherever it is. -/
def increment (i : Nat) (n : Int) : Req Unit :=
  escreve (fun d => .incrementa i (((d.filas.find i).map (·.posicao)).getD 0+n))
    (fun d => d.incrementa i n)

/-- The vaga is looked up at the `posicao` loaded with the fila plus `incremento`, which need
not be the stored one. -/
def chamaProximo (fila : Fila) (mesaId : Option Nat) (incremento : Int) : Req Unit := do
  increment fila.id incremento
  let vaga ← vagaAtual (fila.incrementada incremento)
  Mesa.associaVagaAMesa vaga mesaId

end Fila

/-! `app/models/colegiado.rb` -/

namespace Colegiado

/-- `colegiado.filas.order(prioridade: :asc)` -/
def filasDe (c : Nat) (d : Db) : List Fila :=
  orderBy (fun f => f.prioridade) (d.filas.rows.filter (fun f => f.colegiadoId==some c))

def primeiraNaoVazia : List Fila → Req (Option Fila)
  | [] => pure none
  | f::fs => do
    let n ← consulta (fun d => d.contaVagas f.id)
    if f.posicao<n then pure (some f) else primeiraNaoVazia fs

def proximaFilaNaoVazia (c : Nat) : Req (Option Fila) := do
  let filas ← carrega (filasDe c)
  primeiraNaoVazia filas

end Colegiado

/-! `app/models/aluno.rb` -/

namespace Aluno

/-- `aluno.grupos.where(ativo: true)`; a repeated join row changes none of the uses below. -/
def gruposAtivos (a : Aluno) (grupos : Table Grupo) (ag : List (Nat × Nat)) : List Grupo :=
  grupos.rows.filter (fun g => decide ((a.id,g.id) ∈ ag) && g.ativo==some true)

def estaEmAlgumGrupo (a : Aluno) : Req Bool :=
  consulta (fun d =>
    (orderBy Grupo.prioridade (a.gruposAtivos d.grupos d.alunosGrupos)).head?.isSome)

/-- The second filter looks at the grupo again, not at its fila. -/
def primeiroGrupo (a : Aluno) (grupos : Table Grupo) (ag : List (Nat × Nat)) : Option Grupo :=
  ((orderBy Grupo.prioridade
    ((a.gruposAtivos grupos ag).filter (fun g => g.filaId.isSome))).filter
      (fun g => g.ativo==some true)).head?

def primeiroGrupoAtivoComFilaAtiva (a : Aluno) : Req (Option Grupo) :=
  consulta (fun d => a.primeiroGrupo d.grupos d.alunosGrupos)

/-- `Fila.where(ativo: true).where(colegiado: c).order(prioridade: :asc)` -/
def filasAtivas (c : Option Nat) (d : Db) : List Fila :=
  orderBy (fun f => f.prioridade)
    (d.filas.rows.filter (fun f => f.ativo==some true && f.colegiadoId==c))

/-- The vagas of the aluno in the fila from its loaded pointer on, by `posicao`. -/
def vagasAPartir (a : Aluno) (fila : Fila) (d : Db) : List Vaga :=
  orderBy (fun v => v.posicao)
    ((d.vagasDe (some fila.id)).filter (fun v => v.alunoId==some a.id &&
      decide (∃ p ∈ v.posicao,fila.posicao≤p)))

/-- The loop of `proxima_vaga`. A vaga comes with the fila it was found through, which is what
`vaga.fila` then returns. -/
def procuraVaga (a : Aluno) : List Fila → Req (Option (Vaga × Fila))
  | [] => pure none
  | f::fs => do
    let achou ← le (fun d => .testa a.id (!(a.vagasAPartir f d).isEmpty))
      (fun d => !(a.vagasAPartir f d).isEmpty)
    if achou then do
      let v ← consulta (fun d => (a.vagasAPartir f d).head?)
      pure (v.map (fun v => (v,f)))
    else procuraVaga a fs

def proximaVaga (a : Aluno) : Req (Option (Vaga × Fila)) := do
  let c ← le (fun _ => .busca a.id) (fun d => d.colegiadoDe a.colegiadoId)
  let filas ← consulta (filasAtivas c)
  procuraVaga a filas

/-- `where("prioridade < ?", p)`: a comparison with NULL selects nothing. -/
def antes (p : Option Int) (f : FilaBase) : Bool := decide (∃ x ∈ f.prioridade,∃ y ∈ p,x<y)

/-- The loop of `posicao_total` over the filas called first. -/
def somaFilas : List Fila → Int → Req Int
  | [],soma => pure soma
  | f::fs,soma => do
    let ultima ← Mesa.ultimaVaga (some f.id)
    let p ← orRaise .noMethodError ultima.posicao
    somaFilas fs (if 0<p-f.posicao then soma+(p-f.posicao) else soma)

def posicaoTotal (a : Aluno) : Req Int := do
  match ← a.proximaVaga with
  | none => pure (-1)
  | some (vaga,fila) =>
    if vaga.posicao=some fila.posicao then pure 0
    else do
      let c ← consulta (fun d => d.colegiadoDe a.colegiadoId)
      let filas ← consulta (fun d =>
        (filasAtivas c d).filter (fun f => antes fila.prioridade f.toFilaBase))
      let soma ← somaFilas filas 0
      let p ← orRaise .noMethodError vaga.posicao
      pure (if 0<p-fila.posicao then soma+(p-fila.posicao) else soma)

end Aluno

/-! `app/models/vaga.rb` -/

namespace Vaga

/-- `codigo`: the fila's code, `_`, and the position; nil is written as nothing. -/
def codigo (fila : Option Fila) (posicao : Option Int) : String :=
  ((fila.bind (fun f => f.codigo)).getD "")++"_"++((posicao.map toString).getD "")

/-- `Vaga.create(aluno: a, fila: f)`: validation, the bottom of the list, the INSERT. A failed
validation gives an unsaved object. Returns the fila and the position of the object. -/
def create (a : Aluno) (filaId : Option Nat) : Req (Option Fila × Option Int) := do
  let fila ← consulta (fun d => d.filaDe filaId)
  match fila with
  | none => do
    le (fun _ => .cria a.id none none) (fun _ => ())
    pure (none,none)
  | some f => do
    let fundo ← consulta (fun d => d.maiorPosicao (some f.id))
    let agora ← timeNow
    escreve (fun d => .cria a.id (some f.id) (some d.vagas.next))
      (fun d => d.insereVaga a.id (some f.id) fundo agora)
    pure (some f,some (fundo+1 : Nat))

end Vaga

end Sisfila
