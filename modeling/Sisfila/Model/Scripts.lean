import Sisfila.Framework.Regex
import Sisfila.Model.Importer

namespace Sisfila

/-! `script/le-formandos.rb` -/

namespace Script

open ImporterController (strip linhas)

/-- `IO.readlines`: no line follows the last line break. -/
def readlines (contents : String) : List (List Char) :=
  if (linhas contents).getLast?=some [] then (linhas contents).dropLast else linhas contents

/-- `aluno.update(formando: true)` -/
def formado (a : Aluno) : Aluno := { a with formando := some true }

theorem key_formado (a : Aluno) : Row.key (formado a)=Row.key a := rfl

def formaAluno (d : Db) (i : Nat) : Db :=
  { d with alunos := d.alunos.modify i formado key_formado }

/-- The loop body, with what it has printed so far. `continue` is no word of Ruby, so a blank line
ends in a NameError; after the message about an unknown matricula the update is sent to nil. -/
def leFormando (saida : String) (line : List Char) : Req String :=
  if strip line=[] then .raise .nameError
  else do
    let aluno ← consulta (fun d =>
      d.alunos.rows.find? (fun a => a.matricula==some (String.ofList (strip line))))
    match aluno with
    | none => .raise .noMethodError
    | some a => do
      let ok ← consulta (fun d => d.alunoValido (formado a))
      (if ok then grava (fun d => formaAluno d a.id) else pure ())
      pure (saida++a.nome.getD ""++"\n")

def importaFormandos (contents : String) : Req String :=
  transacao ((readlines contents).foldlM leFormando "")

/-! `script/le-alunos-cr.rb` -/

/-- `IO.readlines` again, here with the line breaks it keeps: `split` sees them. -/
def comQuebra : List (List Char) → List (List Char)
  | [] => []
  | [l] => if l=[] then [] else [l]
  | l::l'::ls => (l++['\n'])::comQuebra (l'::ls)

/-- `line.split(';')`, which leaves the empty fields at the end out. -/
def campos (line : List Char) : List (List Char) :=
  ((line.splitOn ';').reverse.dropWhile (·.isEmpty)).reverse

/-- `cr.gsub(/[^\d]/, '')[0..-2]` -/
def semUltimo (cr : List Char) : List Char := (cr.filter Char.isDigit).dropLast

def valor (ds : List Char) : Nat := ds.foldl (fun n c => 10*n+(c.toNat-48)) 0

/-- A string of digits as the value of an integer column; an empty one is NULL. -/
def paraInteiro (ds : List Char) : Option Int := if ds=[] then none else some (valor ds : Int)

/-- `Aluno.create!`, with the columns of `p` only. -/
def createAluno (p : AlunoParams) : Req Unit := do
  let ok ← consulta (fun d => d.alunoValido (p.novo d.alunos.next))
  if ok then grava (fun d => d.insereAluno p) else .raise .recordInvalid

/-- The loop body, with the number of lines read. A line of fewer than three fields leaves `cr`
nil. -/
def leAlunoCR (lidos : Nat) (line : List Char) : Req Nat :=
  match campos line with
  | matricula::nome::cr::_ => do
    createAluno { score := some (paraInteiro (semUltimo cr)),
                  matricula := some (some (String.ofList (strip matricula))),
                  nome := some (some (String.ofList (strip nome))) }
    pure (lidos+1)
  | _ => .raise .noMethodError

def importaEscalonamento (contents : String) : Req String :=
  transacao (do
    let lidos ← (comQuebra (linhas contents)).foldlM leAlunoCR 0
    pure ("Lidos: "++toString lidos++".\n"))

/-! `script/le-escalonamento.rb` -/

namespace Escalonamento

/-- `.` -/
def ponto (c : Char) : Bool := c != '\n'

/-- `/^\d+(?:Sim|Não) (\d+) .* (\d+) - (.*?) ?- /`, group by group -/
def padrao : Regex :=
  .seq .bol (.seq (.some1 Char.isDigit) (.seq (.alt (.word "Sim".toList) (.word "Não".toList))
    (.seq (.word [' ']) (.seq (.group 1 (.some1 Char.isDigit)) (.seq (.word [' '])
      (.seq (.many ponto true) (.seq (.word [' ']) (.seq (.group 2 (.some1 Char.isDigit))
        (.seq (.word " - ".toList) (.seq (.group 3 (.many ponto false))
          (.seq (.alt (.word [' ']) .empty) (.word "- ".toList))))))))))))

/-- The loop body, with the number of lines read. -/
def leAluno (lidos : Nat) (line : List Char) : Req Nat :=
  match padrao.search line with
  | none => pure lidos
  | some g => do
    createAluno { score := some (paraInteiro (Regex.text g 1)),
                  matricula := some (some (String.ofList (strip (Regex.text g 2)))),
                  nome := some (some (String.ofList (strip (Regex.text g 3)))) }
    pure (lidos+1)

def importaEscalonamento (contents : String) : Req String :=
  transacao (do
    let lidos ← (comQuebra (linhas contents)).foldlM leAluno 0
    pure ("Lidos: "++toString lidos++".\n"))

end Escalonamento

end Script

end Sisfila
