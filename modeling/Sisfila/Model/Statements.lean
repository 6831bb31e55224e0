import Sisfila.Model.Schema

namespace Sisfila

/-! Queries and updates on the tables, as ActiveRecord sends them. -/

namespace Db

/-- The list of all filas. -/
def todas {ρ : Type} (_ : ρ) : Bool := true

/-- The list of one fila. -/
def naFila (f : Option Nat) (v : Vaga) : Bool := v.filaId==f

/-- `Vaga.where(fila_id: f)`, in the order of the primary key. -/
def vagasDe (d : Db) (f : Option Nat) : List Vaga := d.vagas.rows.filter (naFila f)

/-- `fila.vagas.count` -/
def contaVagas (d : Db) (f : Nat) : Nat := (d.vagasDe (some f)).length

/-- `Fila.where(id: f).first` -/
def filaDe (d : Db) (f : Option Nat) : Option Fila := f.bind d.filas.find

/-- `aluno.colegiado`: the key of an existing row, or nil. -/
def colegiadoDe (d : Db) (c : Option Nat) : Option Nat :=
  c.bind (fun i => (d.colegiados.find i).map (·.id))

/-- `belongs_to :colegiado, required: true` -/
def filaValida (d : Db) (f : FilaBase) : Bool := (d.colegiadoDe f.colegiadoId).isSome

/-- `belongs_to :aluno` and `belongs_to :fila, required: true` -/
def vagaValida (d : Db) (v : VagaBase) : Bool :=
  (v.alunoId.bind d.alunos.find).isSome && (d.filaDe v.filaId).isSome

/-- `Fila.where(id: i).update(...)`: a row that fails its validation is left as it is. -/
def updateFila (d : Db) (i : Option Nat) (g : Estatisticas → Estatisticas) : Db :=
  match i with
  | none => d
  | some i =>
    { d with
      filas := d.filas.modify i
        (fun f => if d.filaValida f.toFilaBase
          then { f with toEstatisticas := g f.toEstatisticas } else f)
        (by intro f; dsimp only; split <;> rfl) }

/-- `Vaga.where(...).update(...)`, row by row, each validated. -/
def updateVagas (d : Db) (p : VagaBase → Bool) (g : Chamada → Chamada) : Db :=
  { d with
    vagas := d.vagas.map
      (fun v => if p v.toVagaBase && d.vagaValida v.toVagaBase
        then { v with toChamada := g v.toChamada } else v)
      (by intro v; dsimp only; split <;> rfl) }

/-- `UPDATE filas SET posicao = posicao + n WHERE id = i` -/
def incrementa (d : Db) (i : Nat) (n : Int) : Db :=
  { d with
    filas := d.filas.modify i (fun f => { f with posicao := f.posicao+n }) (fun _ => rfl) }

theorem key_ocupada (v : Option Nat) (agora : ℚ) (r : Mesa) :
    Row.key { r with vagaId := v, updatedAt := agora }=Row.key r := rfl

/-- `mesa.update(vaga: vaga)`. What decides whether there is an UPDATE is the row as it was loaded,
not as it is stored by now. -/
def ocupa (d : Db) (mesa : Mesa) (v : Option Nat) (agora : ℚ) : Db :=
  { d with
    mesas := if mesa.vagaId=v then d.mesas
      else d.mesas.modify mesa.id (fun r => { r with vagaId := v, updatedAt := agora })
        (key_ocupada v agora) }

/-- The greatest `posicao` of the fila, 0 when it has none. -/
def maiorPosicao (d : Db) (f : Option Nat) : Nat := d.vagas.bottom (naFila f)

/-- The row `acts_as_list` inserts below the bottom of the list. -/
def insereVaga (d : Db) (aluno : Nat) (fila : Option Nat) (fundo : Nat) (agora : ℚ) : Db :=
  { d with
    vagas := d.vagas.insert
      (fun n => { id := n, alunoId := some aluno, posicao := some (fundo+1 : Nat), filaId := fila,
                  createdAt := agora, posicao_pos := VagaBase.one_le_fundo fundo })
      (fun _ => rfl) }

/-- The desks of `Rodada.dados`: the active ones with a vaga, the last written first. -/
def anunciadas (d : Db) : List Mesa :=
  (d.mesas.rows.filter (fun m => m.ativo==some true && m.vagaId.isSome)).insertionSort
    (fun a b => b.updatedAt≤a.updatedAt)

/-- Of `Rodada.dados` only which desks it lists, and each with which vaga. -/
def dados (d : Db) : List (Nat × Option Nat) := d.anunciadas.map (fun m => (m.id,m.vagaId))

end Db

/-- What `increment!` leaves in the loaded object. -/
def Fila.incrementada (fila : Fila) (n : Int) : Fila := { fila with posicao := fila.posicao+n }

abbrev Req := Prog Evento World Erro

/-- A SELECT that shows `l`. -/
def le {α : Type} (l : Db → Evento) (q : Db → α) : Req α :=
  .step (fun s => l s.db) id (fun s => .ret (q s.db))

/-- A write that shows `l`, taken before the write. -/
def escreve (l : Db → Evento) (f : Db → Db) : Req Unit :=
  .step (fun s => l s.db) (fun s => { s with db := f s.db }) (fun _ => .ret ())

def consulta {α : Type} (q : Db → α) : Req α := le (fun _ => .consulta) q

/-- A SELECT of filas to call from. -/
def carrega {α : Type} (q : Db → α) : Req α := le (fun _ => .carrega) q

/-- An UPDATE that moves no pointer and seats nobody. -/
def grava (f : Db → Db) : Req Unit := escreve (fun _ => .grava) f

/-- `Time.now` -/
def timeNow : Req ℚ :=
  .step (fun _ => .consulta) (fun s => { s with clock := fun n => s.clock (n+1) })
    (fun s => .ret (s.clock 0))

/-- A value Ruby goes on to use, or the exception nil leads to. -/
def orRaise {α : Type} (e : Erro) : Option α → Req α
  | some a => .ret a
  | none => .raise e

end Sisfila
