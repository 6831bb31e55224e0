import Sisfila.Model.Importer
import Sisfila.Model.Pages

namespace Sisfila

/-- The resources of `config/routes.rb`. -/
inductive Recurso where
  | alunos
  | colegiados
  | filas
  | mesas
  | rodadas
  | vagas
  deriving DecidableEq

namespace Recurso

/-- `authenticate_user!` on the pages that show rows. -/
def entradaLeitura : Recurso → Bool
  | .mesas => true
  | .rodadas => true
  | _ => false

/-- The same on the forms, where `VagasController` asks for it too. -/
def entradaForma : Recurso → Bool
  | .vagas => true
  | c => c.entradaLeitura

def achaLinha (i : Nat) : Recurso → Req Unit
  | .alunos => do let _ ← AlunosController.setAluno i
  | .colegiados => do let _ ← ColegiadosController.setColegiado i
  | .filas => do let _ ← FilasController.setFila i
  | .mesas => do let _ ← MesasController.setMesa i
  | .rodadas => do let _ ← RodadasController.setRodada i
  | .vagas => do let _ ← VagasController.setVaga i

def index (s : Sessao) : Recurso → Req Resposta
  | .vagas => VagasController.index s
  | c => mostra (pure ()) c.entradaLeitura s

def new (s : Sessao) (c : Recurso) : Req Resposta := mostra (pure ()) c.entradaForma s

def show_ (s : Sessao) (i : Nat) (c : Recurso) : Req Resposta :=
  mostra (c.achaLinha i) c.entradaLeitura s

def edit (s : Sessao) (i : Nat) (c : Recurso) : Req Resposta :=
  mostra (c.achaLinha i) c.entradaForma s

end Recurso

/-- Every route of `config/routes.rb` but `/admin` and Devise, with what the action reads of the
session and of the parameters. -/
inductive Rota where
  | requisicao (r : Requisicao)
  | index (c : Recurso) (s : Sessao)
  | new (c : Recurso) (s : Sessao)
  | show_ (c : Recurso) (s : Sessao) (id : Nat)
  | edit (c : Recurso) (s : Sessao) (id : Nat)
  | alunosCreate (s : Sessao) (p : AlunoParams)
  | alunosUpdate (s : Sessao) (id : Nat) (p : AlunoParams)
  | alunosDestroy (s : Sessao) (id : Nat)
  | colegiadosCreate (s : Sessao) (p : ColegiadoParams)
  | colegiadosUpdate (s : Sessao) (id : Nat) (p : ColegiadoParams)
  | colegiadosDestroy (s : Sessao) (id : Nat)
  | colegiadosAnterior (s : Sessao) (id : Nat)
  | colegiadosEsvaziaMesa (s : Sessao) (id : Nat)
  | filasCreate (s : Sessao) (p : FilaParams)
  | filasUpdate (s : Sessao) (id : Nat) (p : FilaParams)
  | filasDestroy (s : Sessao) (id : Nat)
  | filasEsvaziaMesa (s : Sessao) (id : Nat)
  | filasGeraEstatisticasTela (s : Sessao) (id : Nat)
  | filasGeraEstatisticasArquivo (s : Sessao) (id : Nat)
  | mesasCreate (s : Sessao) (p : MesaParams)
  | mesasUpdate (s : Sessao) (id : Nat) (p : MesaParams)
  | mesasDestroy (s : Sessao) (id : Nat)
  | mesasEscolher (s : Sessao) (id : Nat)
  | mesasRemoverSelecao (s : Sessao) (id : Option Nat)
  | rodadasCreate (s : Sessao) (p : RodadaParams)
  | rodadasUpdate (s : Sessao) (id : Nat) (p : RodadaParams)
  | rodadasDestroy (s : Sessao) (id : Nat)
  | vagasCreate (s : Sessao) (p : VagaParams)
  | vagasUpdate (s : Sessao) (id : Nat) (p : VagaParams)
  | vagasDestroy (s : Sessao) (id : Nat)
  | telaHome (s : Sessao)
  | telaIndex (s : Sessao)
  | telaDados (s : Sessao)
  | telaPosicaoAluno (s : Sessao) (matricula : Option String)
  | importerIndex (s : Sessao)
  | importerImport (s : Sessao) (contents : String) (grupo colegiado : Option Nat)

def Rota.prog [ActsAsList Fila] [ActsAsList Vaga] : Rota → Req Resposta
  | .requisicao r => r.prog
  | .index c s => c.index s
  | .new c s => c.new s
  | .show_ c s i => c.show_ s i
  | .edit c s i => c.edit s i
  | .alunosCreate s p => AlunosController.create s p
  | .alunosUpdate s i p => AlunosController.update s i p
  | .alunosDestroy s i => AlunosController.destroy s i
  | .colegiadosCreate s p => ColegiadosController.create s p
  | .colegiadosUpdate s i p => ColegiadosController.update s i p
  | .colegiadosDestroy s i => ColegiadosController.destroy s i
  | .colegiadosAnterior s i => ColegiadosController.anterior s i
  | .colegiadosEsvaziaMesa s i => ColegiadosController.esvaziaMesa s i
  | .filasCreate s p => FilasController.create s p
  | .filasUpdate s i p => FilasController.update s i p
  | .filasDestroy s i => FilasController.destroy s i
  | .filasEsvaziaMesa s i => FilasController.esvaziaMesa s i
  | .filasGeraEstatisticasTela s i =>
    FilasController.responde (FilasController.geraEstatisticasTela s i)
  | .filasGeraEstatisticasArquivo s i =>
    FilasController.responde (FilasController.geraEstatisticasArquivo s i)
  | .mesasCreate s p => MesasController.create s p
  | .mesasUpdate s i p => MesasController.update s i p
  | .mesasDestroy s i => MesasController.destroy s i
  | .mesasEscolher s i => MesasController.escolher s i
  | .mesasRemoverSelecao s i => MesasController.removerSelecao s i
  | .rodadasCreate s p => RodadasController.create s p
  | .rodadasUpdate s i p => RodadasController.update s i p
  | .rodadasDestroy s i => RodadasController.destroy s i
  | .vagasCreate s p => VagasController.create s p
  | .vagasUpdate s i p => VagasController.update s i p
  | .vagasDestroy s i => VagasController.destroy s i
  | .telaHome _ => pure .pagina
  | .telaIndex _ => pure .pagina
  | .telaDados _ => pure .pagina
  | .telaPosicaoAluno _ m => TelaController.posicaoAluno m
  | .importerIndex s => ImporterController.index s
  | .importerImport s t g c => ImporterController.import_ s t g c

def Requisicao.sessao : Requisicao → Sessao
  | .inscrever s _ => s
  | .filasProximo s _ => s
  | .filasAnterior s _ => s
  | .filasUpdateAtivo s _ _ => s
  | .colegiadosProximo s _ => s

def Rota.sessao : Rota → Sessao
  | .requisicao r => r.sessao
  | .index _ s => s
  | .new _ s => s
  | .show_ _ s _ => s
  | .edit _ s _ => s
  | .alunosCreate s _ => s
  | .alunosUpdate s _ _ => s
  | .alunosDestroy s _ => s
  | .colegiadosCreate s _ => s
  | .colegiadosUpdate s _ _ => s
  | .colegiadosDestroy s _ => s
  | .colegiadosAnterior s _ => s
  | .colegiadosEsvaziaMesa s _ => s
  | .filasCreate s _ => s
  | .filasUpdate s _ _ => s
  | .filasDestroy s _ => s
  | .filasEsvaziaMesa s _ => s
  | .filasGeraEstatisticasTela s _ => s
  | .filasGeraEstatisticasArquivo s _ => s
  | .mesasCreate s _ => s
  | .mesasUpdate s _ _ => s
  | .mesasDestroy s _ => s
  | .mesasEscolher s _ => s
  | .mesasRemoverSelecao s _ => s
  | .rodadasCreate s _ => s
  | .rodadasUpdate s _ _ => s
  | .rodadasDestroy s _ => s
  | .vagasCreate s _ => s
  | .vagasUpdate s _ _ => s
  | .vagasDestroy s _ => s
  | .telaHome s => s
  | .telaIndex s => s
  | .telaDados s => s
  | .telaPosicaoAluno s _ => s
  | .importerIndex s => s
  | .importerImport s _ _ _ => s

end Sisfila
