import Mathlib.Data.List.ReduceOption
import Sisfila.Concurrency.Screen
import Sisfila.Model.Pages

namespace Sisfila

/-! From the answer of an enrolment to the screen: while any routes run beside each other, the forms
that edit filas or vagas and those that delete alunos or rodadas apart, the screen can be drawn, and
it calls everybody by the senha the enrolment gave out. -/

/-- The routes that may change a senha, or take away what the screen shows beside it. -/
def Rota.mexeSenhas : Rota → Bool
  | .alunosDestroy _ _ => true
  | .filasCreate _ _ => true
  | .filasUpdate _ _ _ => true
  | .filasDestroy _ _ => true
  | .rodadasDestroy _ _ => true
  | .vagasCreate _ _ => true
  | .vagasUpdate _ _ _ => true
  | .vagasDestroy _ _ => true
  | _ => false

/-- `vaga.codigo`, with the fila as it is stored. -/
def Db.senha (d : Db) (v : VagaBase) : String := Vaga.codigo (d.filaDe v.filaId) v.posicao

namespace Senhas

/-- What no request takes away. -/
structure Mantem (d d' : Db) : Prop where
  vagas : d.core.vagas.rows ⊆ d'.core.vagas.rows
  codigos : d'.core.codigos=d.core.codigos
  alunos : d.alunos.keys ⊆ d'.alunos.keys
  rodadas : d.rodadas.keys ⊆ d'.rodadas.keys
  grupos : d'.grupos=d.grupos

theorem Mantem.refl (d : Db) : Mantem d d :=
  ⟨List.Subset.refl _,rfl,List.Subset.refl _,List.Subset.refl _,rfl⟩

theorem Mantem.trans {d d' d'' : Db} (h : Mantem d d') (h' : Mantem d' d'') : Mantem d d'' where
  vagas := List.Subset.trans h.vagas h'.vagas
  codigos := h'.codigos.trans h.codigos
  alunos := List.Subset.trans h.alunos h'.alunos
  rodadas := List.Subset.trans h.rodadas h'.rodadas
  grupos := h'.grupos.trans h.grupos

theorem Mantem.of_core {d d' : Db} (h : d'.core=d.core) : Mantem d d' := by
  have hp := Rota.Poupa.of_core (r := .telaHome ⟨none,none⟩) h
  refine ⟨?_,hp.codigos rfl,hp.alunos rfl,hp.rodadas rfl,hp.grupos⟩
  rw [hp.vagas rfl]
  exact List.Subset.refl _

theorem codigos_eq (d : Db) (f : Nat) :
    d.core.codigos f=(d.filas.find f).map (fun g => g.codigo) := by
  rw [Core.codigos,Db.findFila_core,Option.map_map]
  rfl

/-- The senha depends on the code of the fila only. -/
theorem senha_eq (d : Db) (v : VagaBase) : d.senha v=
    (((v.filaId.bind d.core.codigos).join).getD "")++"_"++((v.posicao.map toString).getD "") := by
  unfold Db.senha Vaga.codigo Db.filaDe
  cases v.filaId with
  | none => rfl
  | some f =>
    rw [Option.bind_some,Option.bind_some,codigos_eq]
    cases d.filas.find f <;> rfl

theorem Mantem.senha {d d' : Db} (h : Mantem d d') (v : VagaBase) : d'.senha v=d.senha v := by
  rw [senha_eq,senha_eq,h.codigos]

/-- The vaga has its aluno and its fila. -/
def Completa (d : Db) (v : VagaBase) : Prop :=
  (∃ a ∈ v.alunoId,a ∈ d.alunos.keys) ∧ ∃ f ∈ v.filaId,(d.core.codigos f).isSome=true

theorem Mantem.completa {d d' : Db} (h : Mantem d d') {v : VagaBase} (hv : Completa d v) :
    Completa d' v := by
  obtain ⟨⟨a,ha,hak⟩,f,hf,hfk⟩ := hv
  exact ⟨⟨a,ha,h.alunos hak⟩,f,hf,by rw [h.codigos]; exact hfk⟩

def Completas (d : Db) : Prop := ∀ v ∈ d.core.vagas.rows,Completa d v

variable {ι : Type}

/-- What a request may rely on. -/
def Rely (x y : Obs ι Evento World) : Prop := Mantem x.state.db y.state.db ∧ x.trace ⊆ y.trace

def Guarantee (x y : Obs ι Evento World) : Prop :=
  Rely x y ∧ (Completas x.state.db → Completas y.state.db)

theorem Rely.refl (x : Obs ι Evento World) : Rely x x := ⟨.refl _,List.Subset.refl _⟩

theorem Rely.trans (x y z : Obs ι Evento World) (h : Rely x y) (h' : Rely y z) : Rely x z :=
  ⟨h.1.trans h'.1,List.Subset.trans h.2 h'.2⟩

theorem rely_push {x : Obs ι Evento World} {i : ι} {l : World → Evento} {w : World → World}
    (h : Mantem x.state.db (w x.state).db) : Rely x (x.push i l w) :=
  ⟨h,List.subset_cons_self _ _⟩

/-- A statement that adds no vaga. -/
theorem guarantee_push {x : Obs ι Evento World} {i : ι} {l : World → Evento} {w : World → World}
    (h : Mantem x.state.db (w x.state).db)
    (hv : (w x.state).db.core.vagas=x.state.db.core.vagas) : Guarantee x (x.push i l w) := by
  refine ⟨rely_push h,fun hx v hm => ?_⟩
  change v ∈ (w x.state).db.core.vagas.rows at hm
  rw [hv] at hm
  exact h.completa (hx v hm)

theorem codigos_incrementa (k : Core) (f : Nat) (n : Int) :
    (k.incrementa f n).codigos=k.codigos := by
  funext g
  unfold Core.codigos Core.incrementa
  rw [Table.find_modify,Option.map_map]
  congr 1
  funext f
  simp only [Function.comp_apply]
  split_ifs <;> rfl

/-- The routes whose statements neither add a vaga nor change one. -/
theorem poupaVagas {r : Rota} (hr : r.mexeSenhas=false)
    (hi : ∀ u m,r≠.requisicao (.inscrever u m)) : r.mexeVagas=false ∧ r.mexeFilas=false := by
  cases r with
  | requisicao q =>
    cases q with
    | inscrever u m => exact absurd rfl (hi u m)
    | _ => exact ⟨rfl,rfl⟩
  | _ => first | exact ⟨rfl,rfl⟩ | cases hr

/-- Nobody else is deleted either. -/
theorem mantem_pode {r : Rota} (hr : r.mexeSenhas=false)
    (hi : ∀ u m,r≠.requisicao (.inscrever u m)) {q : Fase} {s t : World} {e : Evento}
    (h : r.Pode q s e t) : Mantem s.db t.db ∧ t.db.core.vagas=s.db.core.vagas := by
  obtain ⟨hv,hf⟩ := poupaVagas hr hi
  have ha : r.apagaAlunos=false := by
    cases r <;> first | rfl | cases hr
  have hd : r.apagaRodadas=false := by
    cases r <;> first | rfl | cases hr
  cases h with
  | incrementa f hq =>
    refine ⟨{ Mantem.refl s.db with vagas := ?_, codigos := ?_ },?_⟩ <;>
      simp only [Db.core_incrementa]
    · exact List.Subset.refl _
    · exact codigos_incrementa _ _ _
    · rfl
  | associa m v t hq hm => exact ⟨{ Mantem.refl s.db with },rfl⟩
  | difunde => exact ⟨.refl _,rfl⟩
  | outra e t he h =>
    have hvagas := h.vagas hv
    refine ⟨⟨?_,h.codigos hf,h.alunos ha,h.rodadas hd,h.grupos⟩,hvagas⟩
    rw [hvagas]
    exact List.Subset.refl _

variable {i : ι}

/-- What the others keep the request itself keeps where it only reads. -/
theorem firme {A : Obs ι Evento World → Prop} (hA : Prog.Stable Rely A) :
    Firme i Rely Guarantee A := by
  apply Firme.of_stable _ hA
  · intro l w x hq _
    exact guarantee_push (.of_core (hq.2 x.state)) (congrArg Core.vagas (hq.2 x.state))
  · intro l w x hq
    exact rely_push (.of_core (hq.2 x.state))

/-! The enrolment. -/

/-- Every grupo with a fila has one that exists. -/
def Ligados (d : Db) : Prop := ∀ g ∈ d.grupos.rows,∀ f ∈ g.filaId,(d.core.codigos f).isSome=true

/-- The aluno found by the matricula is there. -/
def Achado (a : Aluno) (x : Obs ι Evento World) : Prop :=
  Ligados x.state.db ∧ a.id ∈ x.state.db.alunos.keys

/-- So is the fila of the chosen grupo. -/
def Escolhida (a : Aluno) (g : Grupo) (x : Obs ι Evento World) : Prop :=
  a.id ∈ x.state.db.alunos.keys ∧ ∃ f ∈ g.filaId,(x.state.db.core.codigos f).isSome=true

/-- The fila as loaded has the code that is stored. -/
def Carregada (a : Aluno) (f : Fila) (x : Obs ι Evento World) : Prop :=
  a.id ∈ x.state.db.alunos.keys ∧ x.state.db.core.codigos f.id=some f.codigo

/-- Request `i` has inserted a vaga of the aluno, and `c` is its senha. -/
def Entregue (i : ι) (a : Aluno) (c : String) (x : Obs ι Evento World) : Prop :=
  ∃ v ∈ x.state.db.core.vagas.rows,(i,.cria a.id v.filaId (some v.id)) ∈ x.trace ∧
    v.alunoId=some a.id ∧ v.posicao.isSome=true ∧ x.state.db.senha v=c

theorem stable_ligados : Prog.Stable Rely (fun x : Obs ι Evento World => Ligados x.state.db) := by
  intro x y hx h g hg f hf
  rw [h.1.grupos] at hg
  rw [h.1.codigos]
  exact hx g hg f hf

theorem stable_achado (a : Aluno) : Prog.Stable (Rely (ι := ι)) (Achado a) :=
  fun x y hx h => ⟨stable_ligados x y hx.1 h,h.1.alunos hx.2⟩

theorem stable_escolhida (a : Aluno) (g : Grupo) :
    Prog.Stable (Rely (ι := ι)) (Escolhida a g) := by
  intro x y hx h
  obtain ⟨ha,f,hf,hs⟩ := hx
  exact ⟨h.1.alunos ha,f,hf,by rw [h.1.codigos]; exact hs⟩

theorem stable_carregada (a : Aluno) (f : Fila) : Prog.Stable (Rely (ι := ι)) (Carregada a f) :=
  fun _ _ hx h => ⟨h.1.alunos hx.1,(congrFun h.1.codigos f.id).trans hx.2⟩

theorem stable_entregue (i : ι) (a : Aluno) (c : String) : Prog.Stable Rely (Entregue i a c) := by
  intro x y hx h
  obtain ⟨v,hv,ht,ha,hp,hc⟩ := hx
  exact ⟨v,h.1.vagas hv,h.2 ht,ha,hp,(h.1.senha v).trans hc⟩

abbrev Segue {α : Type} (i : ι) (A : Obs ι Evento World → Prop) (p : Req α)
    (B : α → Obs ι Evento World → Prop) : Prop :=
  Prog.Triple i (fun _ _ _ => True) Rely Guarantee A p B

/-- The INSERT gives the vaga the aluno and the fila that were loaded, and its position. -/
theorem segue_insere (a : Aluno) (f : Fila) (n : Nat) (t : ℚ) :
    Segue i (Carregada a f)
      (escreve (fun d => .cria a.id (some f.id) (some d.vagas.next))
        (fun d => d.insereVaga a.id (some f.id) n t))
      (fun _ => Entregue i a (Vaga.codigo (some f) (some (n+1 : Nat)))) := by
  apply Prog.Triple.step (stable_carregada a f) (fun _ => stable_entregue i a _)
  intro x hx _
  obtain ⟨ha,hf⟩ := hx
  have hrows := Core.rows_insereVaga x.state.db.core a.id f.id n t
  rw [← Db.core_insereVaga] at hrows
  have hm : Mantem x.state.db (x.state.db.insereVaga a.id (some f.id) n t) :=
    { Mantem.refl x.state.db with vagas := by rw [hrows]; exact List.subset_append_left _ _ }
  refine ⟨⟨rely_push hm,fun hc v hv => ?_⟩,
    { id := x.state.db.core.vagas.next, alunoId := some a.id, posicao := some (n+1 : Nat),
      filaId := some f.id, createdAt := t, posicao_pos := VagaBase.one_le_fundo n },
    ?_,List.mem_cons_self,rfl,rfl,?_⟩
  · change v ∈ (x.state.db.insereVaga a.id (some f.id) n t).core.vagas.rows at hv
    rw [hrows,List.mem_append,List.mem_singleton] at hv
    rcases hv with hv | rfl
    · exact hm.completa (hc v hv)
    · exact hm.completa ⟨⟨a.id,rfl,ha⟩,f.id,rfl,by rw [hf]; rfl⟩
  · change _ ∈ (x.state.db.insereVaga a.id (some f.id) n t).core.vagas.rows
    rw [hrows]
    exact List.mem_append_right _ (List.mem_singleton_self _)
  · change (x.state.db.insereVaga a.id (some f.id) n t).senha _=_
    rw [hm.senha,senha_eq]
    simp [hf,Vaga.codigo]

/-- The fila is still there when the vaga is validated, so there is an INSERT. -/
theorem segue_create (a : Aluno) (g : Grupo) :
    Segue i (Escolhida a g) (Vaga.create a g.filaId)
      (fun o => Entregue i a (Vaga.codigo o.1 o.2)) := by
  have hload : Segue i (Escolhida a g) (consulta (fun d => d.filaDe g.filaId))
      (fun o x => ∃ f,o=some f ∧ Carregada a f x) := by
    apply Firme.le (stable_escolhida a g) (fun _ => rfl)
    · intro o
      apply firme
      intro x y hx h
      obtain ⟨f,ho,hf⟩ := hx
      exact ⟨f,ho,stable_carregada a f x y hf h⟩
    · intro x hx
      obtain ⟨ha,j,hj,hs⟩ := hx
      have hj : g.filaId=some j := hj
      rw [codigos_eq,Option.isSome_map] at hs
      obtain ⟨f,hf⟩ := Option.isSome_iff_exists.mp hs
      have hid : f.id=j := Table.key_of_find hf
      exact ⟨f,by rw [hj]; exact hf,ha,by rw [codigos_eq,hid,hf]; rfl⟩
  -- the fila found is there, so the branch without one is never taken
  have hsome : ∀ {β : Type} {p : Req β} {B : β → Obs ι Evento World → Prop} (f : Fila),
      Segue i (Carregada a f) p B → Segue i (fun x => ∃ f',some f=some f' ∧ Carregada a f' x) p B := by
    intro β p B f h
    refine h.conseq (fun x hx => ?_) (fun _ _ h => h)
    obtain ⟨f',ho,hf⟩ := hx
    exact Option.some.inj ho ▸ hf
  have hfirme := fun f => firme (i := i) (stable_carregada a f)
  exact Vaga.triple_create Rely.refl hload
    (fun x hx => by obtain ⟨f,ho,-⟩ := hx; cases ho)
    (fun f => hsome f ((hfirme f).every (every_consulta _)))
    (fun f _ => (hfirme f).every every_timeNow) (fun f n t => segue_insere a f n t)
    (fun _ => stable_entregue i a _)

/-- Whoever is told a senha has a vaga with it. -/
def Responde (i : ι) (r : Resposta) (x : Obs ι Evento World) : Prop :=
  ∀ a c,r=.inscrito a c → Entregue i a c x

/-- The grupo is one of the table, and it has a fila. -/
theorem filaId_of_primeiroGrupo {a : Aluno} {g : Grupo} {gs : Table Grupo} {ag : List (Nat × Nat)}
    (h : a.primeiroGrupo gs ag=some g) : g ∈ gs.rows ∧ g.filaId.isSome=true := by
  have hm := (mem_orderBy _ _ _).mp (List.mem_of_mem_filter (List.mem_of_head? h))
  obtain ⟨hm,hf⟩ := List.mem_filter.mp hm
  exact ⟨List.mem_of_mem_filter hm,hf⟩

/-- The outline of an enrolment that delivers what it answers. -/
def inscricao (i : ι) : Inscricao i (fun _ _ _ => True) Rely Guarantee where
  inicio x := Ligados x.state.db
  achado := Achado
  escolhida := Escolhida
  liberada := Escolhida
  respondida := Responde i
  refl := Rely.refl
  consulta _ := guarantee_push (.refl _) rfl
  inicio_consulta _ h := h
  achado_consulta _ _ h := h
  stable_inicio := stable_ligados
  stable_achado := stable_achado
  stable_escolhida := stable_escolhida
  stable_respondida _ x y hx h a c he := stable_entregue i a c x y (hx a c he) h
  acha _ hx _ ha := ⟨hx,List.mem_map_of_mem ha⟩
  escolhe a g x hx hg := by
    obtain ⟨hm,hs⟩ := filaId_of_primeiroGrupo hg
    obtain ⟨f,hf⟩ := Option.isSome_iff_exists.mp hs
    exact ⟨hx.2,f,hf,hx.1 g hm f hf⟩
  procura a g := ((firme (stable_escolhida a g)).every a.every_proximaVaga).conseq (fun _ h => h)
    (fun _ _ h _ => h)
  nega _ _ hr a c he := absurd he (hr a c)
  cria a g := (segue_create a g).conseq (fun _ h => h) (fun o x hx b c he => by
    obtain ⟨rfl,rfl⟩ := Resposta.inscrito.inj he
    exact hx)

/-- Every route keeps to the guarantee, and an enrolment delivers what it answers. -/
theorem safe_rota (r : Rota) (hr : r.mexeSenhas=false) {x : Obs ι Evento World}
    (hx : Ligados x.state.db) :
    r.prog.Safe i (fun _ _ _ => True) Rely Guarantee
      (fun a y => ∀ u m,r=.requisicao (.inscrever u m) → Responde i a y) x := by
  by_cases hi : ∃ u m,r=.requisicao (.inscrever u m)
  · obtain ⟨u,m,rfl⟩ := hi
    exact ((inscricao i).inscrever u m x hx).mono (fun a y h _ _ _ => h)
  · have hi : ∀ u m,r≠.requisicao (.inscrever u m) := fun u m he => hi ⟨u,m,he⟩
    have htriple : Segue i (fun _ => True) r.prog (fun _ _ => True) := by
      apply Prog.Triple.of_every r.segue.every (fun _ _ h _ => h)
      intro l w y hs _
      obtain ⟨q,hp⟩ := hs
      obtain ⟨hm,hv⟩ := mantem_pode hr hi (hp y.state)
      exact ⟨guarantee_push hm hv,trivial⟩
    exact (htriple x trivial).mono (fun _ _ _ u m he => absurd he (hi u m))

/-! The page. -/

theorem mapM_eq_some {α β : Type} {f : α → Option β} {l : List α}
    (h : ∀ a ∈ l,∃ b,f a=some b) : ∃ bs,l.mapM f=some bs ∧ ∀ a ∈ l,∀ b,f a=some b → b ∈ bs := by
  induction l with
  | nil => exact ⟨[],rfl,nofun⟩
  | cons a l ih =>
    obtain ⟨b,hb⟩ := h a List.mem_cons_self
    obtain ⟨bs,hbs,hm⟩ := ih (fun a ha => h a (List.mem_cons_of_mem _ ha))
    refine ⟨b::bs,by simp [List.mapM_cons,hb,hbs],fun x hx y hy => ?_⟩
    rcases List.mem_cons.mp hx with rfl | hx
    · rw [hb] at hy
      exact Option.some.inj hy ▸ List.mem_cons_self
    · exact List.mem_cons_of_mem _ (hm x hx y hy)

/-- What the screen shows for a vaga that has its aluno and its fila. -/
theorem linha_of_completa {d : Db} {m : Mesa} {v : Vaga} (hv : m.vagaId.bind d.vagas.find=some v)
    (h : Completa d v.toVagaBase) : ∃ cod nome,v.filaId.bind d.core.codigos=some cod ∧
      Telao.linha d m=some (some ⟨Telao.texto m.nome,
        "["++Telao.texto cod++"_"++Telao.texto (v.posicao.map toString)++"]",nome⟩) := by
  obtain ⟨⟨a,ha,hak⟩,f,hf,hfk⟩ := h
  have ha : v.alunoId=some a := ha
  have hf : v.filaId=some f := hf
  obtain ⟨b,hb,rfl⟩ := List.mem_map.mp hak
  rw [codigos_eq,Option.isSome_map] at hfk
  obtain ⟨g,hg⟩ := Option.isSome_iff_exists.mp hfk
  refine ⟨g.codigo,Telao.texto b.nome,?_,?_⟩
  · rw [hf,Option.bind_some,codigos_eq,hg,Option.map_some]
  · have hfind : d.alunos.find b.id=some b := Table.find_of_mem hb
    simp [Telao.linha,hv,Db.filaDe,hf,hg,ha,hfind]

theorem exists_linha {d : Db} (hd : Completas d) (m : Mesa) : ∃ l,Telao.linha d m=some l := by
  cases hv : m.vagaId.bind d.vagas.find with
  | none => exact ⟨none,by simp [Telao.linha,hv]⟩
  | some v =>
    obtain ⟨i,-,hi⟩ := Option.bind_eq_some_iff.mp hv
    obtain ⟨cod,nome,-,hl⟩ := linha_of_completa hv
      (hd v.toVagaBase (List.mem_map_of_mem (Table.mem_of_find hi)))
    exact ⟨_,hl⟩

/-- The page can be drawn, with a line for every vaga on a desk of the payload. -/
theorem pagina_of_completas {d : Db} (hr : d.rodadas.rows≠[]) (hd : Completas d) :
    ∃ t ls,Telao.atualizaPaginaRealmente d=some (t,ls) ∧
      ∀ m ∈ d.anunciadas,∀ l,Telao.linha d m=some (some l) → l ∈ ls := by
  obtain ⟨r,rs,hr⟩ := List.exists_cons_of_ne_nil hr
  obtain ⟨ls,hls,hm⟩ := mapM_eq_some (l := d.anunciadas) (fun m _ => exists_linha hd m)
  refine ⟨r.descricao,ls.reduceOption,by simp [Telao.atualizaPaginaRealmente,hr,hls],?_⟩
  intro m hmem l hl
  exact List.reduceOption_mem_iff.mpr (hm m hmem _ hl)

/-- With a code and a position the screen and the enrolment write the same senha. -/
theorem codigovaga_eq {d : Db} {v : VagaBase} {cod : Option String}
    (hf : v.filaId.bind d.core.codigos=some cod) (hc : cod.isSome=true)
    (hp : v.posicao.isSome=true) :
    "["++Telao.texto cod++"_"++Telao.texto (v.posicao.map toString)++"]"="["++d.senha v++"]" := by
  obtain ⟨c,rfl⟩ := Option.isSome_iff_exists.mp hc
  obtain ⟨p,hp⟩ := Option.isSome_iff_exists.mp hp
  simp [senha_eq,hf,hp,Telao.texto,String.append_assoc]

/-- The line of a vaga that is on a desk of the payload. -/
theorem linha_of_dados {d : Db} {r : Mesa} {v : Vaga} (hr : r ∈ d.mesas.rows)
    (hv : v ∈ d.vagas.rows) (h : (r.id,some v.id) ∈ d.dados) (hc : Completa d v.toVagaBase)
    (hcod : ∀ f cod,d.core.codigos f=some cod → cod.isSome=true) (hp : v.posicao.isSome=true) :
    r ∈ d.anunciadas ∧ ∃ l,Telao.linha d r=some (some l) ∧ l.mesa=Telao.texto r.nome ∧
      l.codigovaga="["++d.senha v.toVagaBase++"]" := by
  rw [Db.dados] at h
  obtain ⟨m,hm,he⟩ := List.mem_map.mp h
  obtain ⟨hid,hvid⟩ := Prod.mk.inj he
  have hmr : m ∈ d.mesas.rows := List.mem_of_mem_filter ((List.mem_insertionSort _).mp hm)
  obtain rfl := d.mesas.key_injective hmr hr hid
  have hfind : m.vagaId.bind d.vagas.find=some v := by
    rw [hvid]
    exact Table.find_of_mem hv
  obtain ⟨cod,nome,hf,hl⟩ := linha_of_completa hfind hc
  obtain ⟨f,-,hfc⟩ := Option.bind_eq_some_iff.mp hf
  exact ⟨hm,_,hl,rfl,codigovaga_eq hf (hcod f cod hfc) hp⟩

/-! The start. -/

theorem isSome_codigos {d : Db} {f : Nat} (hf : f ∈ d.filas.keys) :
    (d.core.codigos f).isSome=true := by
  obtain ⟨g,hg,rfl⟩ := List.mem_map.mp hf
  rw [codigos_eq,Option.isSome_map,Table.find_of_mem hg]
  rfl

theorem completas_of_validas {d : Db}
    (h : ∀ v ∈ d.vagas.rows,d.vagaValida v.toVagaBase=true) : Completas d := by
  intro v hv
  obtain ⟨w,hw,rfl⟩ := List.mem_map.mp hv
  have hok := h w hw
  rw [Db.vagaValida,Bool.and_eq_true] at hok
  obtain ⟨a,ha⟩ := Option.isSome_iff_exists.mp hok.1
  obtain ⟨f,hf⟩ := Option.isSome_iff_exists.mp hok.2
  obtain ⟨i,hi,hai⟩ := Option.bind_eq_some_iff.mp ha
  obtain ⟨j,hj,hfj⟩ := Option.bind_eq_some_iff.mp hf
  exact ⟨⟨i,hi,Table.mem_keys_of_find hai⟩,j,hj,isSome_codigos (Table.mem_keys_of_find hfj)⟩

theorem Mantem.rodadas_ne {d d' : Db} (h : Mantem d d') (hr : d.rodadas.rows≠[]) :
    d'.rodadas.rows≠[] := by
  obtain ⟨r,rs,he⟩ := List.exists_cons_of_ne_nil hr
  have hk := h.rodadas (List.mem_map_of_mem (he ▸ List.mem_cons_self))
  intro hn
  simp [Table.keys,hn] at hk

/-- No fila loses its code. -/
theorem Mantem.isSome_codigo {d d' : Db} (h : Mantem d d')
    (hc : ∀ f ∈ d.filas.rows,f.codigo.isSome=true) {f : Nat} {cod : Option String}
    (hf : d'.core.codigos f=some cod) : cod.isSome=true := by
  rw [h.codigos,codigos_eq] at hf
  obtain ⟨g,hg,rfl⟩ := Option.map_eq_some_iff.mp hf
  exact hc g (Table.mem_of_find hg)

variable [DecidableEq ι]

/-- The whole interleaving: nothing is taken away, every vaga stays complete, and every enrolment
that has answered has delivered. -/
theorem reach {s : World} {rs : ι → Rota} {c : Config ι Evento World Erro Resposta}
    (hr : ∀ i,(rs i).mexeSenhas=false) (hl : Ligados s.db) (hc : Completas s.db)
    (h : Config.Reach (fun _ _ _ => True) (rotas s rs) c) :
    Mantem s.db c.obs.state.db ∧ Completas c.obs.state.db ∧
      ∀ i u m a senha,rs i=.requisicao (.inscrever u m) → (c.pool i).answer=some (.inscrito a senha) →
        Entregue i a senha c.obs := by
  have hsafe : (rotas s rs).AllSafe (fun _ _ _ => True) (fun _ => Rely) (fun _ => Guarantee)
      (fun i a y => ∀ u m,rs i=.requisicao (.inscrever u m) → Responde i a y) :=
    fun i => safe_rota (rs i) (hr i) hl
  obtain ⟨hall,hm,hc⟩ := hsafe.reach h
    (fun x => Mantem s.db x.state.db ∧ Completas x.state.db) ⟨.refl _,hc⟩ (fun _ => Rely.refl)
    (fun _ => Rely.trans) (fun _ _ _ _ _ hg => hg.1)
    (fun _ x y hx hg => ⟨hx.1.trans hg.1.1,hg.2 hx.2⟩)
  refine ⟨hm,hc,fun i u m a senha hi hret => ?_⟩
  have hdone := hall i
  rw [Prog.answer_eq_some hret] at hdone
  exact hdone c.obs (Rely.refl _) u m hi a senha rfl

end Senhas

/-- At every moment of every interleaving the payload of that moment can be drawn on the screen, and
whoever `inscrever` has told a senha has that vaga; while it is on a desk of the payload, the screen
shows the same senha for that desk. -/
theorem senha_noTelao {ι : Type} [DecidableEq ι] {s : World} {rs : ι → Rota}
    {c : Config ι Evento World Erro Resposta} (hr : ∀ i,(rs i).mexeSenhas=false)
    (hrod : s.db.rodadas.rows≠[])
    (hgru : ∀ g ∈ s.db.grupos.rows,∀ f ∈ g.filaId,f ∈ s.db.filas.keys)
    (hcod : ∀ f ∈ s.db.filas.rows,f.codigo.isSome=true)
    (hvag : ∀ v ∈ s.db.vagas.rows,s.db.vagaValida v.toVagaBase=true)
    (h : Config.Reach (fun _ _ _ => True) (rotas s rs) c) :
    ∃ t ls,Telao.atualizaPaginaRealmente c.obs.state.db=some (t,ls) ∧
      ∀ i u m a senha,rs i=.requisicao (.inscrever u m) → (c.pool i).answer=some (.inscrito a senha) →
        ∃ v ∈ c.obs.state.db.vagas.rows,(i,.cria a.id v.filaId (some v.id)) ∈ c.obs.trace ∧
          v.alunoId=some a.id ∧
          ∀ r ∈ c.obs.state.db.mesas.rows,(r.id,some v.id) ∈ c.obs.state.db.dados →
            ∃ l ∈ ls,l.mesa=Telao.texto r.nome ∧ l.codigovaga="["++senha++"]" := by
  have hlig : Senhas.Ligados s.db := fun g hg f hf => Senhas.isSome_codigos (hgru g hg f hf)
  obtain ⟨hm,hc,hent⟩ := Senhas.reach hr hlig (Senhas.completas_of_validas hvag) h
  obtain ⟨t,ls,hpag,hlin⟩ := Senhas.pagina_of_completas (hm.rodadas_ne hrod) hc
  refine ⟨t,ls,hpag,fun i u m a senha hi hret => ?_⟩
  obtain ⟨v,hv,htr,hal,hpos,rfl⟩ := hent i u m a senha hi hret
  have hcv := hc v hv
  obtain ⟨w,hw,rfl⟩ := List.mem_map.mp hv
  refine ⟨w,hw,htr,hal,fun r hr hd => ?_⟩
  obtain ⟨hmem,l,hl,hmesa,hsenha⟩ := Senhas.linha_of_dados hr hw hd hcv
    (fun _ _ hf => hm.isSome_codigo hcod hf) hpos
  exact ⟨l,hlin r hmem l hl,hmesa,hsenha⟩

namespace Cenario

/-- Fila 1 with a code. -/
def comCodigo : World :=
  world (medida.modify 1 (FilaParams.atribui { codigo := some (some "F") }) (fun _ => rfl))
    Table.empty

/-- Two enrolments and a call. -/
def pedidos (i : Fin 3) : Rota :=
  if i=0 then .requisicao (inscreve "a")
  else if i=1 then .requisicao (inscreve "b")
  else .requisicao (.filasProximo (mesa 1) 1)

/-- The second enrolment runs while the first is half way through; then the call. -/
def chamada : Config (Fin 3) Evento World Erro Resposta :=
  (rotas comCodigo pedidos).fireAll
    (List.replicate 8 0++List.replicate 30 1++List.replicate 30 0++List.replicate 80 2)

theorem chamada_reach : Config.Reach (fun _ _ _ => True) (rotas comCodigo pedidos) chamada :=
  Config.reach_fireAll _ _

end Cenario

/-- Desk 1 calls whoever was told F_1. -/
theorem senha_noTelao_chamada :
    (Cenario.chamada.pool 1).answer=some (.inscrito (Cenario.aluno 2 "b") "F_1") ∧
    Cenario.chamada.obs.state.db.dados=[(1,some 1)] ∧
    ∃ t ls,Telao.atualizaPaginaRealmente Cenario.chamada.obs.state.db=some (t,ls) ∧
      ∃ l ∈ ls,l.codigovaga="[F_1]" := by
  have hret : (Cenario.chamada.pool 1).answer=
      some (.inscrito (Cenario.aluno 2 "b") "F_1") := by decide +kernel
  have hdados : Cenario.chamada.obs.state.db.dados=[(1,some 1)] := by decide +kernel
  have hvaga : ∀ v ∈ Cenario.chamada.obs.state.db.vagas.rows,v.alunoId=some 2 → v.id=1 := by
    decide +kernel
  have hmesa : ∃ r ∈ Cenario.chamada.obs.state.db.mesas.rows,r.id=1 := by decide +kernel
  refine ⟨hret,hdados,?_⟩
  obtain ⟨t,ls,hpag,hls⟩ := senha_noTelao (by decide) (by decide) (by decide) (by decide)
    (by decide) Cenario.chamada_reach
  obtain ⟨v,hv,-,hal,hl⟩ := hls 1 ⟨none,none⟩ (some "b") _ _ rfl hret
  obtain ⟨r,hr,hrid⟩ := hmesa
  have hpar : (r.id,some v.id) ∈ Cenario.chamada.obs.state.db.dados := by
    rw [hrid,hvaga v hv hal,hdados]
    exact List.mem_singleton_self _
  obtain ⟨l,hmem,-,hsenha⟩ := hl r hr hpar
  exact ⟨t,ls,hpag,l,hmem,hsenha⟩

end Sisfila
