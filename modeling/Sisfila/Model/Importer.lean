import Sisfila.Model.Resources

namespace Sisfila

/-- A block whose writes are undone when an exception leaves it. -/
def transacao {α : Type} (p : Req α) : Req α :=
  .step (fun _ => .grava)
    (fun s => match (p.exec s).result with
      | .ok _ => (p.exec s).state
      | .error _ => { (p.exec s).state with db := s.db })
    (fun s => match (p.exec s).result with
      | .ok a => .ret a
      | .error e => .raise e)

/-! `app/controllers/importer_controller.rb` -/

namespace ImporterController

/-- What `String#strip` removes. -/
def branco (c : Char) : Bool := c == '\x00' || c == ' ' || ('\t' ≤ c && c ≤ '\r')

def strip (l : List Char) : List Char := ((l.dropWhile branco).reverse.dropWhile branco).reverse

/-- A line without its quotes and outer white space. -/
def limpa (l : List Char) : List Char := strip (l.filter (· != '"'))

/-- The text between the digits and the name: a tab, a comma, a semicolon or some blanks. -/
def separador : List Char → List Char
  | '\t'::l => l
  | ','::l => l
  | ';'::l => l
  | l => l.dropWhile (· == ' ')

/-- `/^(?<matricula>\d+)(\t|,|;| *)(?<nome>.*?)$/` on a line without line breaks: the digits are
taken as far as they go and the rest follows without a second choice. -/
def leLinha (l : List Char) : Option (String × String) :=
  match l.takeWhile Char.isDigit with
  | [] => none
  | m => some (String.ofList m,String.ofList (strip (separador (l.dropWhile Char.isDigit))))

/-- `Aluno.create!(matricula: m, colegiado: c)` -/
def insereAluno (d : Db) (m : String) (c : Nat) : Db :=
  { d with
    alunos := d.alunos.insert
      (fun n => { id := n, matricula := some m, colegiadoId := some c }) (fun _ => rfl) }

/-- `a.update(ativo: true, nome: n)` -/
def ativado (n : String) (a : Aluno) : Aluno := { a with nome := some n, ativo := some true }

def ativaAluno (d : Db) (i : Nat) (n : String) : Db :=
  { d with alunos := d.alunos.modify i (ativado n) (fun _ => rfl) }

/-- `grupo.alunos.delete_all`: the join rows of the alunos that exist. -/
def esvaziaGrupo (d : Db) (g : Nat) : Db :=
  { d with
    alunosGrupos := d.alunosGrupos.filter
      (fun x => !(x.2==g && (d.alunos.find x.1).isSome)) }

/-- `grupo.alunos.append(a)` -/
def junta (d : Db) (a g : Nat) : Db := { d with alunosGrupos := d.alunosGrupos++[(a,g)] }

/-- The aluno of a line, created if the matricula is new. -/
def alunoDaLinha (m : String) (colegiado : Option Colegiado) : Req (Aluno × Bool) := do
  let aluno ← consulta (fun d => d.alunos.rows.find? (fun a => a.matricula==some m))
  match aluno with
  | some a => pure (a,false)
  | none => do
    let c ← orRaise .recordInvalid colegiado
    let n ← consulta (fun d => d.alunos.next)
    grava (fun d => insereAluno d m c.id)
    let a ← AlunosController.setAluno n
    pure (a,true)

/-- `append` saves an aluno whose update failed once more, and raises. -/
def poeNoGrupo (a : Aluno) (salvo : Bool) : Option Grupo → Req Unit
  | none => pure ()
  | some g => if salvo then grava (fun d => junta d a.id g.id) else .raise .recordInvalid

/-- A valid line. The colegiado assigned to an aluno at the end of the loop body is never saved. -/
def importaAluno (grupo : Option Grupo) (colegiado : Option Colegiado) (m n : String) :
    Req String := do
  let (a,novo) ← alunoDaLinha m colegiado
  let ok ← consulta (fun d => d.alunoValido (ativado n a))
  (if ok then grava (fun d => ativaAluno d a.id n) else pure ())
  poeNoGrupo a (ok || decide (ativado n a=a)) grupo
  pure ((if novo then "(novo aluno criado) " else "")++"'"++m++"' - '"++n++"'\n")

/-- The loop body: the output so far and the number of lines read. -/
def importaLinha (grupo : Option Grupo) (colegiado : Option Colegiado) (x : String × Nat)
    (bruta : List Char) : Req (String × Nat) :=
  if limpa bruta=[] then pure x
  else match leLinha (limpa bruta) with
    | none => pure (x.1++"Linha inválida: \""++String.ofList (limpa bruta)++"\"\n",x.2)
    | some (m,n) => do
      let saida ← importaAluno grupo colegiado m n
      pure (x.1++saida,x.2+1)

/-- `readlines`; an empty last line is skipped like any other empty line. -/
def linhas (contents : String) : List (List Char) := contents.toList.splitOn '\n'

def removeAlunos : Option Grupo → Req String
  | none => pure ""
  | some g => do
    let size ← consulta (fun d =>
      d.alunosGrupos.countP (fun x => x.2==g.id && (d.alunos.find x.1).isSome))
    grava (fun d => esvaziaGrupo d g.id)
    pure ("Removendo "++toString size++" alunos do grupo '"++g.nome.getD ""++
      "' antes de adicionar os novos alunos.\n\n")

/-- The grupo is emptied before the transaction opens. -/
def importaEscalonamento (contents : String) (grupo : Option Grupo)
    (colegiado : Option Colegiado) : Req String := do
  let saida ← removeAlunos grupo
  let (saida,lidos) ← transacao ((linhas contents).foldlM (importaLinha grupo colegiado)
    (saida++"Importando alunos:\n",0))
  pure (saida++"Lidos: "++toString lidos++".\n")

/-- `find(id) unless id.empty?` -/
def achaOpcional {ρ : Type} (q : Nat → Db → Option ρ) : Option Nat → Req (Option ρ)
  | none => pure none
  | some i => do
    let r ← acha (q i)
    pure (some r)

/-- `authorize! :access, :rails_admin`, which is given with `can :manage, :all`. -/
def import_ (s : Sessao) (contents : String) (grupo colegiado : Option Nat) : Req Resposta := do
  authorize s
  let g ← achaOpcional (fun i d => d.grupos.find i) grupo
  let c ← achaOpcional (fun i d => d.colegiados.find i) colegiado
  let saida ← importaEscalonamento contents g c
  pure (.importado saida)

def index (s : Sessao) : Req Resposta := mostra (pure ()) false s

end ImporterController

end Sisfila
