import Sisfila.Model.Controllers

namespace Sisfila

/-- The tables without their statistics and call times: what decides who is called, and where
everybody sits. -/
@[ext] structure Core where
  alunos : Table Aluno
  alunosGrupos : List (Nat × Nat)
  colegiados : Table Colegiado
  filas : Table FilaBase
  grupos : Table Grupo
  mesas : Table Mesa
  rodadas : Table Rodada
  vagas : Table VagaBase

def Db.core (d : Db) : Core where
  alunos := d.alunos
  alunosGrupos := d.alunosGrupos
  colegiados := d.colegiados
  filas := d.filas.map Fila.toFilaBase (fun _ => rfl)
  grupos := d.grupos
  mesas := d.mesas
  rodadas := d.rodadas
  vagas := d.vagas.map Vaga.toVagaBase (fun _ => rfl)

namespace Core

/-- The list of one fila. -/
def naFila (f : Option Nat) (v : VagaBase) : Bool := v.filaId==f

@[simp] theorem naFila_iff {f : Option Nat} {v : VagaBase} : naFila f v=true ↔ v.filaId=f :=
  beq_iff_eq

def vagasDe (k : Core) (f : Nat) : List VagaBase := k.vagas.rows.filter (naFila (some f))

/-- The vaga a call at `posicao` finds. -/
def vagaEm (k : Core) (f : Nat) (p : Int) : Option VagaBase :=
  (k.vagasDe f).find? (fun v => v.posicao==some p)

def filasDe (k : Core) (c : Nat) : List FilaBase :=
  orderBy FilaBase.prioridade (k.filas.rows.filter (fun f => f.colegiadoId==some c))

/-- The fila the next call of the colegiado goes to. -/
def proximaFila (k : Core) (c : Nat) : Option FilaBase :=
  (k.filasDe c).find? (fun f => decide (f.posicao<((k.vagasDe f.id).length : Int)))

def colegiadoDe (k : Core) (c : Option Nat) : Option Nat :=
  c.bind (fun i => (k.colegiados.find i).map (·.id))

def filasAtivas (k : Core) (c : Option Nat) : List FilaBase :=
  orderBy FilaBase.prioridade
    (k.filas.rows.filter (fun f => f.ativo==some true && f.colegiadoId==c))

def vagasAPartir (k : Core) (a : Aluno) (f : FilaBase) : List VagaBase :=
  orderBy VagaBase.posicao ((k.vagasDe f.id).filter (fun v => v.alunoId==some a.id &&
    decide (∃ p ∈ v.posicao,f.posicao≤p)))

/-- What `Aluno#proxima_vaga` finds, with its fila. -/
def proximaVaga (k : Core) (a : Aluno) : Option (VagaBase × FilaBase) :=
  (k.filasAtivas (k.colegiadoDe a.colegiadoId)).findSome?
    (fun f => (k.vagasAPartir a f).head?.map (fun v => (v,f)))

def maiorPosicao (k : Core) (f : Nat) : Nat := k.vagas.bottom (naFila (some f))

def incrementa (k : Core) (i : Nat) (n : Int) : Core :=
  { k with
    filas := k.filas.modify i (fun f => { f with posicao := f.posicao+n }) (fun _ => rfl) }

def ocupa (k : Core) (mesa : Mesa) (v : Option Nat) (agora : ℚ) : Core :=
  { k with
    mesas := if mesa.vagaId=v then k.mesas
      else k.mesas.modify mesa.id (fun r => { r with vagaId := v, updatedAt := agora })
        (Db.key_ocupada v agora) }

def insereVaga (k : Core) (aluno fila fundo : Nat) (agora : ℚ) : Core :=
  { k with
    vagas := k.vagas.insert
      (fun n => { id := n, alunoId := some aluno, posicao := some (fundo+1 : Nat),
                  filaId := some fila, createdAt := agora,
                  posicao_pos := VagaBase.one_le_fundo fundo })
      (fun _ => rfl) }

def filaValida (k : Core) (f : FilaBase) : Bool := (k.colegiadoDe f.colegiadoId).isSome

def vagaValida (k : Core) (v : VagaBase) : Bool :=
  (v.alunoId.bind k.alunos.find).isSome && (v.filaId.bind k.filas.find).isSome

def ativaFila (k : Core) (i : Nat) (b : Option Bool) : Core :=
  { k with filas := k.filas.modify i (fun f => { f with ativo := b }) (fun _ => rfl) }

end Core

namespace Db

variable (d : Db)

@[simp] theorem core_alunos : d.core.alunos=d.alunos := rfl
@[simp] theorem core_alunosGrupos : d.core.alunosGrupos=d.alunosGrupos := rfl
@[simp] theorem core_grupos : d.core.grupos=d.grupos := rfl
@[simp] theorem core_colegiados : d.core.colegiados=d.colegiados := rfl
@[simp] theorem core_mesas : d.core.mesas=d.mesas := rfl
@[simp] theorem core_filas : d.core.filas=d.filas.map Fila.toFilaBase (fun _ => rfl) := rfl
@[simp] theorem core_vagas : d.core.vagas=d.vagas.map Vaga.toVagaBase (fun _ => rfl) := rfl

/-! Statistics and call times do not show in the core. -/

@[simp] theorem core_updateFila (i : Option Nat) (g : Estatisticas → Estatisticas) :
    (d.updateFila i g).core=d.core := by
  cases i with
  | none => rfl
  | some i =>
    refine Core.ext rfl rfl rfl (Table.rows_injective ?_ rfl) rfl rfl rfl rfl
    simp only [updateFila,core_filas,Table.map_rows,Table.modify_rows,List.map_map]
    refine List.map_congr_left ?_
    intro f _
    simp only [Function.comp_apply]
    split_ifs <;> rfl

@[simp] theorem core_updateVagas (p : VagaBase → Bool) (g : Chamada → Chamada) :
    (d.updateVagas p g).core=d.core := by
  refine Core.ext rfl rfl rfl rfl rfl rfl rfl (Table.rows_injective ?_ rfl)
  simp only [updateVagas,core_vagas,Table.map_rows,List.map_map]
  refine List.map_congr_left ?_
  intro v _
  simp only [Function.comp_apply]
  split_ifs <;> rfl

/-! The other writes act on the core alone. -/

@[simp] theorem core_incrementa (i : Nat) (n : Int) :
    (d.incrementa i n).core=d.core.incrementa i n := by
  have h := d.filas.map_modify Fila.toFilaBase (fun _ => rfl) i
    (fun f => { f with posicao := f.posicao+n }) (fun _ => rfl)
    (fun f => { f with posicao := f.posicao+n }) (fun _ => rfl) (fun _ => rfl)
  exact Core.ext rfl rfl rfl h rfl rfl rfl rfl

@[simp] theorem core_ocupa (mesa : Mesa) (v : Option Nat) (agora : ℚ) :
    (d.ocupa mesa v agora).core=d.core.ocupa mesa v agora := rfl

@[simp] theorem core_insereVaga (a f n : Nat) (agora : ℚ) :
    (d.insereVaga a (some f) n agora).core=d.core.insereVaga a f n agora := by
  refine Core.ext rfl rfl rfl rfl rfl rfl rfl (Table.rows_injective ?_ rfl)
  simp [insereVaga,Core.insereVaga]

theorem core_atualizaAtivo (f : Fila) (b : Option Bool) :
    (d.atualizaFila f { ativo := some b }).core=d.core.ativaFila f.id b := by
  have h := d.filas.map_modify Fila.toFilaBase (fun _ => rfl) f.id
    (FilaParams.atribui { ativo := some b }) (fun _ => rfl)
    (fun f => { f with ativo := b }) (fun _ => rfl) (fun _ => rfl)
  exact Core.ext rfl rfl rfl h rfl rfl rfl rfl

/-! Queries of the tables, read off the core. -/

@[simp] theorem naFila_iff {f : Option Nat} {v : Vaga} : naFila f v=true ↔ v.filaId=f :=
  beq_iff_eq

theorem vagasDe_core (f : Nat) :
    d.core.vagasDe f=(d.vagasDe (some f)).map Vaga.toVagaBase := by
  simp only [Core.vagasDe,core_vagas,Table.map_rows,List.filter_map]
  rfl

theorem contaVagas_core (f : Nat) : d.contaVagas f=(d.core.vagasDe f).length := by
  simp [contaVagas,vagasDe_core]

theorem filasDe_core (c : Nat) :
    d.core.filasDe c=(Colegiado.filasDe c d).map Fila.toFilaBase := by
  simp only [Core.filasDe,core_filas,Table.map_rows,List.filter_map,orderBy_map]
  rfl

theorem filasAtivas_core (c : Option Nat) :
    d.core.filasAtivas c=(Aluno.filasAtivas c d).map Fila.toFilaBase := by
  simp only [Core.filasAtivas,core_filas,Table.map_rows,List.filter_map,orderBy_map]
  rfl

theorem vagasAPartir_core (a : Aluno) (f : Fila) :
    d.core.vagasAPartir a f.toFilaBase=(a.vagasAPartir f d).map Vaga.toVagaBase := by
  simp only [Core.vagasAPartir,vagasDe_core,List.filter_map,orderBy_map]
  rfl

theorem colegiadoDe_core (c : Option Nat) : d.core.colegiadoDe c=d.colegiadoDe c := rfl

theorem maiorPosicao_core (f : Nat) : d.core.maiorPosicao f=d.maiorPosicao (some f) :=
  Table.bottom_map Vaga.toVagaBase (fun _ => rfl) (fun _ => rfl) (fun _ => rfl) d.vagas

theorem vagaEm_core (f : Nat) (p : Int) :
    d.core.vagaEm f p=
      ((d.vagasDe (some f)).find? (fun v => v.posicao==some p)).map Vaga.toVagaBase := by
  simp only [Core.vagaEm,vagasDe_core,List.find?_map]
  rfl

theorem findFila_core (i : Nat) : d.core.filas.find i=(d.filas.find i).map Fila.toFilaBase :=
  Table.find_map d.filas Fila.toFilaBase (fun _ => rfl) i

theorem vagaValida_core (v : VagaBase) : d.core.vagaValida v=d.vagaValida v := by
  unfold Core.vagaValida vagaValida filaDe
  congr 1
  cases v.filaId with
  | none => rfl
  | some f =>
    rw [Option.bind_some,Option.bind_some,findFila_core,Option.isSome_map]

theorem proximaFila_core (c : Nat) :
    d.core.proximaFila c=((Colegiado.filasDe c d).find?
      (fun f => decide (f.posicao<(d.contaVagas f.id : Int)))).map Fila.toFilaBase := by
  simp only [Core.proximaFila,filasDe_core,List.find?_map,contaVagas_core]
  rfl

theorem proximaVaga_core (a : Aluno) :
    d.core.proximaVaga a=((Aluno.filasAtivas (d.colegiadoDe a.colegiadoId) d).findSome?
      (fun f => (a.vagasAPartir f d).head?.map (fun v => (v,f)))).map
      (fun x => (x.1.toVagaBase,x.2.toFilaBase)) := by
  rw [Core.proximaVaga,colegiadoDe_core,filasAtivas_core]
  induction Aluno.filasAtivas (d.colegiadoDe a.colegiadoId) d with
  | nil => rfl
  | cons f fs ih =>
    simp only [List.map_cons,List.findSome?_cons,vagasAPartir_core,List.head?_map]
    cases (a.vagasAPartir f d).head? with
    | none => simpa using ih
    | some v => rfl

end Db

end Sisfila
