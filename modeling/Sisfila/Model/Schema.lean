import Sisfila.Framework.Listed
import Sisfila.Framework.Program
import Mathlib.Data.Rat.Defs
import Mathlib.Algebra.Order.Ring.Unbundled.Rat

namespace Sisfila

/-- A `float` value without its rounding: exact rationals, the two infinities and NaN.
Ruby divides floats by zero without an exception. PostgreSQL stores whatever comes out, and so
does the model; SQLite would store NaN as NULL. -/
inductive Dbl where
  | num (q : ℚ)
  | inf (negative : Bool)
  | nan
  deriving DecidableEq

namespace Dbl

/-- Float division. A zero divisor counts as positive. -/
def div : Dbl → Dbl → Dbl
  | .num a,.num b =>
      if b=0 then (if a=0 then .nan else .inf (decide (a<0))) else .num (a/b)
  | .num _,.inf _ => .num 0
  | .inf n,.num b => .inf (n ^^ decide (b<0))
  | .inf _,.inf _ => .nan
  | .nan,_ => .nan
  | _,.nan => .nan

/-- An integer times a float. -/
def scale (k : Int) : Dbl → Dbl
  | .num q => .num (k*q)
  | .inf n => if k=0 then .nan else .inf (n ^^ decide (k<0))
  | .nan => .nan

end Dbl

/-- A float of seconds written to an integer column loses its fraction, towards zero. -/
def truncate (q : ℚ) : Int := Int.tdiv q.num q.den

/-! The tables of `db/schema.rb`. Nullable columns are options; a datetime is in seconds. -/

structure Colegiado where
  id : Nat
  nome : Option String := none
  codigo : Option String := none
  sigla : Option String := none
  deriving DecidableEq

structure Aluno where
  id : Nat
  matricula : Option String
  nome : Option String := none
  ativo : Option Bool := some true
  score : Option Int := none
  fezPreMatricula : Option Bool := some false
  formando : Option Bool := some false
  colegiadoId : Option Nat
  deriving DecidableEq

structure Grupo where
  id : Nat
  nome : Option String := none
  prioridade : Option Int
  ativo : Option Bool := some true
  filaId : Option Nat
  deriving DecidableEq

/-- The columns of `filas` that decide who is called. `acts_as_list column: :prioridade` raises a
smaller value to 1 before every save. -/
structure FilaBase where
  id : Nat
  codigo : Option String := none
  nome : Option String := none
  prioridade : Option Int
  ativo : Option Bool := some true
  posicao : Int := 1
  colegiadoId : Option Nat
  prioridade_pos : ∀ p ∈ prioridade,1≤p := by decide
  deriving DecidableEq

/-- The statistics columns of `filas`, at their schema defaults. -/
structure Estatisticas where
  npaguardando : Option Int := none
  npatendidas : Option Int := none
  nptotal : Option Int := none
  tiatendimento : Option ℚ := none
  tfatendimento : Option ℚ := none
  realizarcalculo : Option Bool := some true
  tempoatendimento : Option Dbl := none
  mi : Option Dbl := some (.num 0)
  lambda : Option Dbl := some (.num 0)
  tempomedioespera : Option Dbl := none
  deriving DecidableEq

structure Fila extends FilaBase, Estatisticas
  deriving DecidableEq

/-- The columns of `vagas` fixed by the enrolment. `acts_as_list scope: :fila, column: :posicao`
never stores a value below 1. -/
structure VagaBase where
  id : Nat
  alunoId : Option Nat
  posicao : Option Int
  filaId : Option Nat
  rodadaId : Option Int := none
  createdAt : ℚ
  posicao_pos : ∀ p ∈ posicao,1≤p := by decide
  deriving DecidableEq

theorem VagaBase.one_le_fundo (fundo : Nat) : ∀ p ∈ some ((fundo+1 : Nat) : Int),1≤p := by
  intro p hp
  have he : ((fundo+1 : Nat) : Int)=p := Option.some.inj hp
  omega

/-- The columns of `vagas` written when the vaga is called. -/
structure Chamada where
  dataChamada : Option ℚ := none
  temponafila : Option Int := none
  deriving DecidableEq

structure Vaga extends VagaBase, Chamada
  deriving DecidableEq

structure Mesa where
  id : Nat
  nome : Option String := none
  alunoId : Option Int := none
  ativo : Option Bool := some true
  vagaId : Option Nat := none
  updatedAt : ℚ := 0
  deriving DecidableEq

structure Rodada where
  id : Nat
  descricao : Option String := none
  posicaoAtual : Option Int := none
  inscricaoGuest : Option Bool
  deriving DecidableEq

instance : Row Colegiado := ⟨Colegiado.id⟩
instance : Row Aluno := ⟨Aluno.id⟩
instance : Row Grupo := ⟨Grupo.id⟩
instance : Row FilaBase := ⟨FilaBase.id⟩
instance : Row Fila := ⟨fun f => f.id⟩
instance : Row VagaBase := ⟨VagaBase.id⟩
instance : Row Vaga := ⟨fun v => v.id⟩
instance : Row Mesa := ⟨Mesa.id⟩
instance : Row Rodada := ⟨Rodada.id⟩

@[simp] theorem Row.key_colegiado (r : Colegiado) : Row.key r=r.id := rfl
@[simp] theorem Row.key_aluno (r : Aluno) : Row.key r=r.id := rfl
@[simp] theorem Row.key_grupo (r : Grupo) : Row.key r=r.id := rfl
@[simp] theorem Row.key_filaBase (r : FilaBase) : Row.key r=r.id := rfl
@[simp] theorem Row.key_fila (r : Fila) : Row.key r=r.id := rfl
@[simp] theorem Row.key_vagaBase (r : VagaBase) : Row.key r=r.id := rfl
@[simp] theorem Row.key_vaga (r : Vaga) : Row.key r=r.id := rfl
@[simp] theorem Row.key_mesa (r : Mesa) : Row.key r=r.id := rfl

/-! `acts_as_list` columns. -/

theorem one_le_map_max (p : Option Int) : ∀ q ∈ p.map (max 1),1≤q := by
  intro q hq
  obtain ⟨x,-,rfl⟩ := Option.map_eq_some_iff.mp hq
  exact le_max_left 1 x

def VagaBase.comPosicao (p : Option Int) (v : VagaBase) : VagaBase :=
  { v with posicao := p.map (max 1), posicao_pos := one_le_map_max p }

def Vaga.comPosicao (p : Option Int) (v : Vaga) : Vaga :=
  { v with toVagaBase := v.toVagaBase.comPosicao p }

def FilaBase.comPrioridade (p : Option Int) (f : FilaBase) : FilaBase :=
  { f with prioridade := p.map (max 1), prioridade_pos := one_le_map_max p }

def Fila.comPrioridade (p : Option Int) (f : Fila) : Fila :=
  { f with toFilaBase := f.toFilaBase.comPrioridade p }

instance : Listed VagaBase where
  pos := VagaBase.posicao
  put := VagaBase.comPosicao
  one_le := VagaBase.posicao_pos
  pos_put _ _ := rfl
  key_put _ _ := rfl

instance : Listed Vaga where
  pos v := v.posicao
  put := Vaga.comPosicao
  one_le v := v.posicao_pos
  pos_put _ _ := rfl
  key_put _ _ := rfl

instance : Listed FilaBase where
  pos := FilaBase.prioridade
  put := FilaBase.comPrioridade
  one_le := FilaBase.prioridade_pos
  pos_put _ _ := rfl
  key_put _ _ := rfl

theorem Fila.one_le_prioridade (f : Fila) : ∀ p ∈ f.prioridade,1≤p := f.prioridade_pos

instance : Listed Fila where
  pos f := f.prioridade
  put := Fila.comPrioridade
  one_le := Fila.one_le_prioridade
  pos_put _ _ := rfl
  key_put _ _ := rfl

/-- `alunos_grupos` is a join table without a key of its own. -/
structure Db where
  alunos : Table Aluno
  alunosGrupos : List (Nat × Nat)
  colegiados : Table Colegiado
  filas : Table Fila
  grupos : Table Grupo
  mesas : Table Mesa
  rodadas : Table Rodada
  vagas : Table Vaga
  deriving DecidableEq

/-- The database and the readings `Time.now` is still to give, in the order of its calls. -/
structure World where
  db : Db
  clock : Nat → ℚ

/-- The exceptions the modelled code can end in. -/
inductive Erro where
  | recordNotFound
  | accessDenied
  | nameError
  | noMethodError
  | typeError
  | zeroDivisionError
  | floatDomainError
  | associationTypeMismatch
  | notNullViolation
  | recordInvalid
  /-- `raise Exception, "Not implemented"` -/
  | notImplemented
  deriving DecidableEq

/-- What a statement shows to an observer of the tables. -/
inductive Evento where
  /-- a SELECT or a clock reading -/
  | consulta
  /-- any other write -/
  | grava
  /-- the load of filas, with the `posicao` a call will start from -/
  | carrega
  /-- `increment!`: the fila and its stored `posicao` afterwards -/
  | incrementa (fila : Nat) (posicao : Int)
  /-- `mesa.update(vaga: vaga)` -/
  | associa (mesa : Nat) (vaga : Option Nat)
  /-- the first statement of `Aluno#proxima_vaga` -/
  | busca (aluno : Nat)
  /-- its test of one fila -/
  | testa (aluno : Nat) (achou : Bool)
  /-- the INSERT of `Vaga.create`, with the new key unless validation failed -/
  | cria (aluno : Nat) (fila : Option Nat) (vaga : Option Nat)
  /-- the broadcast of `Rodada.dados`: desks in order, each with its vaga -/
  | difunde (mesas : List (Nat × Option Nat))
  deriving DecidableEq

end Sisfila
