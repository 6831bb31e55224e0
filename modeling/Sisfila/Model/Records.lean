import Sisfila.Model.Statements

namespace Sisfila

/-! The permitted parameters of each form: `none` was not sent, `some none` was sent empty. -/

structure AlunoParams where
  matricula : Option (Option String) := none
  nome : Option (Option String) := none
  ativo : Option (Option Bool) := none
  score : Option (Option Int) := none
  fezPreMatricula : Option (Option Bool) := none
  formando : Option (Option Bool) := none
  deriving DecidableEq

def AlunoParams.atribui (p : AlunoParams) (a : Aluno) : Aluno :=
  { a with
    matricula := p.matricula.getD a.matricula
    nome := p.nome.getD a.nome
    ativo := p.ativo.getD a.ativo
    score := p.score.getD a.score
    fezPreMatricula := p.fezPreMatricula.getD a.fezPreMatricula
    formando := p.formando.getD a.formando }

theorem AlunoParams.key_atribui (p : AlunoParams) (a : Aluno) :
    Row.key (p.atribui a)=Row.key a := rfl

/-- `Aluno.new(aluno_params)`: no parameter names a colegiado. -/
def AlunoParams.novo (p : AlunoParams) (n : Nat) : Aluno :=
  p.atribui { id := n, matricula := none, colegiadoId := none }

structure ColegiadoParams where
  nome : Option (Option String) := none
  codigo : Option (Option String) := none
  deriving DecidableEq

def ColegiadoParams.atribui (p : ColegiadoParams) (c : Colegiado) : Colegiado :=
  { c with nome := p.nome.getD c.nome, codigo := p.codigo.getD c.codigo }

theorem ColegiadoParams.key_atribui (p : ColegiadoParams) (c : Colegiado) :
    Row.key (p.atribui c)=Row.key c := rfl

theorem ColegiadoParams.key_novo (p : ColegiadoParams) (n : Nat) :
    Row.key (p.atribui { id := n })=n := rfl

structure RodadaParams where
  descricao : Option (Option String) := none
  deriving DecidableEq

def RodadaParams.atribui (p : RodadaParams) (r : Rodada) : Rodada :=
  { r with descricao := p.descricao.getD r.descricao }

structure FilaParams where
  codigo : Option (Option String) := none
  nome : Option (Option String) := none
  prioridade : Option (Option Int) := none
  ativo : Option (Option Bool) := none
  posicao : Option (Option Int) := none
  deriving DecidableEq

/-- The columns outside the list. An empty `posicao` never gets this far. -/
def FilaParams.atribuiBase (p : FilaParams) (f : FilaBase) : FilaBase :=
  { f with
    codigo := p.codigo.getD f.codigo
    nome := p.nome.getD f.nome
    ativo := p.ativo.getD f.ativo
    posicao := p.posicao.join.getD f.posicao }

def FilaParams.atribui (p : FilaParams) (f : Fila) : Fila :=
  { f with toFilaBase := p.atribuiBase f.toFilaBase }

/-- `Fila.new(fila_params)` before it joins the list: no parameter names a colegiado. -/
def FilaParams.nova (p : FilaParams) (n : Nat) : Fila :=
  p.atribui { id := n, prioridade := none, colegiadoId := none }

structure VagaParams where
  alunoId : Option (Option Nat) := none
  rodadaId : Option (Option Int) := none
  posicao : Option (Option Int) := none
  dataChamada : Option (Option ℚ) := none
  deriving DecidableEq

/-- The columns of `vaga_params.except(:posicao)` that the core shows. -/
def VagaParams.atribuiBase (p : VagaParams) (v : VagaBase) : VagaBase :=
  { v with alunoId := p.alunoId.getD v.alunoId, rodadaId := p.rodadaId.getD v.rodadaId }

def VagaParams.atribui (p : VagaParams) (v : Vaga) : Vaga :=
  { v with
    toVagaBase := p.atribuiBase v.toVagaBase
    dataChamada := p.dataChamada.getD v.dataChamada }

/-- `Vaga.new(vaga_params)` before it joins the list: no parameter names a fila. -/
def VagaParams.nova (p : VagaParams) (agora : ℚ) (n : Nat) : Vaga :=
  p.atribui { id := n, alunoId := none, posicao := none, filaId := none, createdAt := agora }

structure MesaParams where
  nome : Option (Option String) := none
  ativo : Option (Option Bool) := none
  alunoId : Option (Option Int) := none
  /-- a scalar, which is never a Vaga, or null -/
  vaga : Option (Option String) := none
  deriving DecidableEq

/-- Assigning a scalar to the association raises, null empties the desk. -/
def MesaParams.vagaAceita (p : MesaParams) : Bool := p.vaga.join.isNone

def MesaParams.atribui (p : MesaParams) (m : Mesa) : Mesa :=
  { m with
    nome := p.nome.getD m.nome
    ativo := p.ativo.getD m.ativo
    alunoId := p.alunoId.getD m.alunoId
    vagaId := if p.vaga=some none then none else m.vagaId }

theorem MesaParams.key_nova (p : MesaParams) (agora : ℚ) (n : Nat) :
    Row.key (p.atribui { id := n, updatedAt := agora })=n := rfl

/-- An unchanged desk is not written. -/
def MesaParams.atualiza (p : MesaParams) (agora : ℚ) (m : Mesa) : Mesa :=
  if p.atribui m=m then m else { p.atribui m with updatedAt := agora }

theorem MesaParams.key_atualiza (p : MesaParams) (agora : ℚ) (m : Mesa) :
    Row.key (p.atualiza agora m)=Row.key m := by
  unfold atualiza
  split <;> rfl

/-! What the requests to create may send: the permitted columns and the association that the record
requires, which no whitelist names. -/

structure AlunoForm extends AlunoParams where
  colegiadoId : Option (Option Nat) := none

structure FilaForm extends FilaParams where
  colegiadoId : Option (Option Nat) := none

structure VagaForm extends VagaParams where
  filaId : Option (Option Nat) := none

/-! What `save` and `destroy` do to the tables. -/

namespace Db

variable (d : Db)

/-- `validates_uniqueness_of :matricula` and `belongs_to :colegiado, required: true` -/
def alunoValido (a : Aluno) : Bool :=
  (d.colegiadoDe a.colegiadoId).isSome &&
    d.alunos.rows.all (fun b => b.id==a.id || b.matricula != a.matricula)

def insereAluno (p : AlunoParams) : Db :=
  { d with alunos := d.alunos.insert p.novo (fun _ => rfl) }

def atualizaAluno (i : Nat) (p : AlunoParams) : Db :=
  { d with alunos := d.alunos.modify i p.atribui p.key_atribui }

/-- The join rows of the aluno go first; nothing else depends on it. -/
def apagaAluno (i : Nat) : Db :=
  { d with
    alunos := d.alunos.delete i
    alunosGrupos := d.alunosGrupos.filter (fun x => x.1 != i) }

def insereColegiado (p : ColegiadoParams) : Db :=
  { d with colegiados := d.colegiados.insert (fun n => p.atribui { id := n }) p.key_novo }

def atualizaColegiado (i : Nat) (p : ColegiadoParams) : Db :=
  { d with colegiados := d.colegiados.modify i p.atribui p.key_atribui }

def apagaColegiado (i : Nat) : Db := { d with colegiados := d.colegiados.delete i }

def insereRodada (p : RodadaParams) : Db :=
  { d with
    rodadas := d.rodadas.insert (fun n => p.atribui { id := n, inscricaoGuest := none })
      (fun _ => rfl) }

def atualizaRodada (i : Nat) (p : RodadaParams) : Db :=
  { d with rodadas := d.rodadas.modify i p.atribui (fun _ => rfl) }

def apagaRodada (i : Nat) : Db := { d with rodadas := d.rodadas.delete i }

def insereMesa (p : MesaParams) (agora : ℚ) : Db :=
  { d with
    mesas := d.mesas.insert (fun n => p.atribui { id := n, updatedAt := agora }) (p.key_nova agora) }

def atualizaMesa (i : Nat) (p : MesaParams) (agora : ℚ) : Db :=
  { d with mesas := d.mesas.modify i (p.atualiza agora) (p.key_atualiza agora) }

def apagaMesa (i : Nat) : Db := { d with mesas := d.mesas.delete i }

/-- A new fila takes its place in the list: the given one, or below the bottom. -/
def insereFila [ActsAsList Fila] (p : FilaParams) : Db :=
  { d with
    filas := ActsAsList.create todas p.prioridade.join p.nova (fun _ => rfl) d.filas }

/-- The columns, then the place in the list if one was sent. -/
def atualizaFila [ActsAsList Fila] (f : Fila) (p : FilaParams) : Db :=
  let t := d.filas.modify f.id p.atribui (fun _ => rfl)
  { d with
    filas := match p.prioridade with
      | none => t
      | some q => ActsAsList.save todas (p.atribui f) q t }

def apagaFila [ActsAsList Fila] (f : Fila) : Db :=
  { d with filas := ActsAsList.destroy todas f d.filas }

/-- `Vaga.new(vaga_params).save` -/
def insereVagaNova [ActsAsList Vaga] (p : VagaParams) (agora : ℚ) : Db :=
  { d with
    vagas := ActsAsList.create (naFila none) p.posicao.join (p.nova agora) (fun _ => rfl) d.vagas }

/-- `@vaga.update(vaga_params.except(:posicao))` -/
def atualizaVaga (i : Nat) (p : VagaParams) : Db :=
  { d with vagas := d.vagas.modify i p.atribui (fun _ => rfl) }

/-- `@vaga.set_list_position(q)`: an absent or empty `q` is stored as nil. -/
def setListPosition [ActsAsList Vaga] (v : Vaga) (q : Option Int) : Db :=
  { d with vagas := ActsAsList.save (naFila v.filaId) v q d.vagas }

def apagaVaga [ActsAsList Vaga] (v : Vaga) : Db :=
  { d with vagas := ActsAsList.destroy (naFila v.filaId) v d.vagas }

end Db

end Sisfila
