import Sisfila.Import.Result
import Sisfila.Queue.Run

namespace Sisfila

/-- Alunos and their join rows, and two colegiados. -/
def Cenario.turma (alunos : Table Aluno) (alunosGrupos : List (Nat × Nat)) : World :=
  ⟨{ Cenario.db .empty .empty with
      alunos := alunos
      alunosGrupos := alunosGrupos
      colegiados := ⟨[{ id := 1 },{ id := 2 }],3,by decide,by decide⟩ },fun n => 10*n⟩

/-- One aluno of colegiado 1, with matricula 1. -/
def Cenario.veterano : Table Aluno := ⟨[Cenario.aluno 1 "1"],2,by decide,by decide⟩

def Cenario.grupo : Grupo := { id := 1, prioridade := some 1, filaId := some 1 }

namespace ImporterController

variable {grupo : Option Grupo} {colegiado : Option Colegiado}

theorem alunosGrupos_esvaziaGrupo (d : Db) (g : Nat) :
    (esvaziaGrupo d g).alunosGrupos=d.alunosGrupos ↔
      ∀ x,(x,g) ∈ d.alunosGrupos → d.alunos.find x=none := by
  rw [esvaziaGrupo,List.filter_eq_self]
  constructor
  · intro h x hx
    simpa using h (x,g) hx
  · intro h x hx
    by_cases hg : x.2=g
    · subst hg
      simp [h x.1 hx]
    · simp [hg]

/-- A failed import leaves the memberships alone exactly if there were none to remove: the grupo
is emptied before the transaction begins. -/
theorem importaEscalonamento_falha (contents : String) (grupo : Option Grupo)
    (colegiado : Option Colegiado) (s : World)
    (h : ((importaEscalonamento contents grupo colegiado).exec s).ok=false) :
    (((importaEscalonamento contents grupo colegiado).exec s).state.db.alunos=s.db.alunos ∧
      ((importaEscalonamento contents grupo colegiado).exec s).state.db.alunosGrupos=
        s.db.alunosGrupos) ↔
    ∀ g ∈ grupo,∀ x,(x,g.id) ∈ s.db.alunosGrupos → s.db.alunos.find x=none := by
  rw [db_importaEscalonamento_of_error grupo colegiado h]
  cases grupo with
  | none => simp [esvaziado]
  | some g =>
    have ha : (esvaziado (some g) s.db).alunos=s.db.alunos := rfl
    have hag : (esvaziado (some g) s.db).alunosGrupos=(esvaziaGrupo s.db g.id).alunosGrupos := rfl
    rw [ha,hag,and_iff_right rfl,alunosGrupos_esvaziaGrupo]
    simp

/-- Nobody is in the grupo, and the new aluno would need a colegiado. -/
theorem importaEscalonamento_falha_vazio :
    ((importaEscalonamento "2 B" (some Cenario.grupo) none).exec
      (Cenario.turma Cenario.veterano [])).state.db.alunosGrupos=[] :=
  ((importaEscalonamento_falha "2 B" (some Cenario.grupo) none (Cenario.turma Cenario.veterano [])
    (by decide +kernel)).mpr (by intro g _ x hx; cases hx)).2

/-- The grupo has lost its aluno, though the import raised. -/
theorem importaEscalonamento_perde :
    ((importaEscalonamento "2 B" (some Cenario.grupo) none).exec
      (Cenario.turma Cenario.veterano [(1,1)])).ok=false ∧
    ((importaEscalonamento "2 B" (some Cenario.grupo) none).exec
      (Cenario.turma Cenario.veterano [(1,1)])).state.db.alunosGrupos=[] := by
  decide +kernel

/-! What a completed import establishes. -/

section established

variable {d : Db} {rs : List (String × String)}

theorem mem_importado {a : Aluno} : a ∈ (importado grupo colegiado d rs).alunos.rows ↔
    ∃ b ∈ (comNovos colegiado d (rs.map (fun r => r.1))).alunos.rows,renomeado d rs b=a :=
  List.mem_map

theorem mem_comNovos {a : Aluno} (h : a ∈ d.alunos.rows) (ms : List String) :
    a ∈ (comNovos colegiado d ms).alunos.rows := by
  obtain ⟨novos,he,-⟩ := estende_comNovos colegiado d ms
  rw [he.rows]
  exact List.mem_append_left _ h

theorem mem_of_ultimoNome {m n : String} (h : ultimoNome rs m=some n) : (m,n) ∈ rs := by
  obtain ⟨r,hr,rfl⟩ := Option.map_eq_some_iff.mp h
  have hm : r.1=m := by simpa using List.find?_some hr
  rw [← hm]
  exact List.mem_reverse.mp (List.mem_of_find?_eq_some hr)

theorem exists_ultimoNome {m : String} (h : m ∈ rs.map (fun r => r.1)) :
    ∃ n,ultimoNome rs m=some n := by
  refine Option.ne_none_iff_exists'.mp ?_
  intro hn
  exact (ultimoNome_eq_none rs m).mp hn h

theorem renomeado_alheio {a : Aluno} (hm : ∀ m ∈ a.matricula,m ∉ rs.map (fun r => r.1)) :
    renomeado d rs a=a := by
  refine renomeado_of_none ?_ d
  cases ha : a.matricula with
  | none => rfl
  | some m => exact (ultimoNome_eq_none rs m).mpr (hm m ha)

/-- Nothing happens to an aluno whose matricula is on no line. -/
theorem mem_importado_alheio {a : Aluno} (hm : ∀ m ∈ a.matricula,m ∉ rs.map (fun r => r.1)) :
    a ∈ (importado grupo colegiado d rs).alunos.rows ↔ a ∈ d.alunos.rows := by
  rw [mem_importado]
  constructor
  · rintro ⟨b,hb,rfl⟩
    rw [(renomeado_colunas d rs b).2.1] at hm
    obtain ⟨novos,he,-⟩ := estende_comNovos colegiado d (rs.map (fun r => r.1))
    rw [he.rows] at hb
    rcases List.mem_append.mp hb with hb | hb
    · rw [renomeado_alheio hm]
      exact hb
    · obtain ⟨m,hms,c,-,hform⟩ := he.forma b hb
      exact absurd hms (hm m (by rw [hform]; rfl))
  · intro ha
    exact ⟨a,mem_comNovos ha _,renomeado_alheio hm⟩

theorem filter_inscritos (g : Grupo) (e : Db) (rs : List (String × String)) :
    (inscritos (some g) e rs).filter (fun x => x.2 != g.id)=[] := by
  rw [List.filter_eq_nil_iff]
  intro x hx
  obtain ⟨r,-,hr⟩ := List.mem_filterMap.mp hx
  obtain ⟨a,-,rfl⟩ := Option.map_eq_some_iff.mp hr
  simp

/-- The rows of other grupos stay as they are. -/
theorem filter_importado (g : Grupo) (d : Db) (rs : List (String × String)) :
    (importado (some g) colegiado (esvaziado (some g) d) rs).alunosGrupos.filter
      (fun x => x.2 != g.id)=d.alunosGrupos.filter (fun x => x.2 != g.id) := by
  rw [importado,List.filter_append,filter_inscritos,List.append_nil,esvaziado,Option.elim_some,
    esvaziaGrupo,List.filter_filter]
  refine List.filter_congr ?_
  intro x _
  by_cases hg : x.2=g.id <;> simp [hg]

/-- Every accepted line has its aluno. -/
theorem Aceita.dono (h : Aceita grupo colegiado d rs) {r : String × String} (hr : r ∈ rs) :
    ∃ b,(comNovos colegiado d (rs.map (fun r => r.1))).dono r.1=some b :=
  Option.isSome_iff_exists.mp
    (dono_comNovos d (List.mem_map_of_mem hr) (h.conhecida r hr))

/-- A new aluno has no name yet, so with a grupo it must be possible to save it. -/
theorem Aceita.novo_valido {g : Grupo} (h : Aceita (some g) colegiado d rs) {m n : String}
    (hr : (m,n) ∈ rs) {b : Aluno}
    (hb : (comNovos colegiado d (rs.map (fun r => r.1))).dono m=some b) (hn : b.nome=none) :
    d.alunoValido b=true := by
  refine (h.salva rfl (m,n) hr b hb).resolve_right ?_
  intro ha
  have hx := congrArg Aluno.nome ha
  rw [hn] at hx
  cases hx

end established

/-- The state a completed import is meant to leave for the grupo `g` and the colegiado `c`. -/
structure Importou (d d' : Db) (g c : Nat) (rs : List (String × String)) : Prop where
  linha : ∀ m n,ultimoNome rs m=some n → ∃ a ∈ d'.alunos.rows,a.matricula=some m ∧
    a.ativo=some true ∧ a.nome=some n ∧ a.colegiadoId=some c ∧ (a.id,g) ∈ d'.alunosGrupos ∧
    ∀ b ∈ d'.alunos.rows,b.matricula=some m → b=a
  resto : ∀ a,(∀ m ∈ a.matricula,m ∉ rs.map (fun r => r.1)) →
    (a ∈ d'.alunos.rows ↔ a ∈ d.alunos.rows)
  outros : d'.alunosGrupos.filter (fun x => x.2 != g)=d.alunosGrupos.filter (fun x => x.2 != g)

section established

variable {d : Db} {g : Grupo} {c : Colegiado} {rs : List (String × String)}

/-- The aluno of a line can be saved and has the colegiado, if the old ones have it. -/
theorem Aceita.valido (ha : Aceita (some g) (some c) d rs)
    (hc : ∀ a ∈ d.alunos.rows,(d.colegiadoDe a.colegiadoId).isSome=true)
    (hcol : ∀ m ∈ rs.map (fun r => r.1),∀ a ∈ d.alunos.rows,a.matricula=some m →
      a.colegiadoId=some c.id ∧ ∀ b ∈ d.alunos.rows,b.matricula=some m → b=a)
    {m n : String} (hr : (m,n) ∈ rs) {b : Aluno}
    (hb : (comNovos (some c) d (rs.map (fun r => r.1))).dono m=some b) :
    d.alunoValido b=true ∧ b.colegiadoId=some c.id := by
  obtain ⟨novos,he,-⟩ := estende_comNovos (some c) d (rs.map (fun r => r.1))
  obtain ⟨hmem,hmat⟩ := Db.matricula_of_dono hb
  rw [he.rows] at hmem
  rcases List.mem_append.mp hmem with hold | hnew
  · obtain ⟨hcb,hu⟩ := hcol m (List.mem_map_of_mem hr) b hold hmat
    refine ⟨(d.alunoValido_iff b).mpr ⟨hc b hold,?_⟩,hcb⟩
    intro x hx
    by_cases hxm : x.matricula=some m
    · exact .inl (congrArg Aluno.id (hu x hx hxm))
    · exact .inr (hmat ▸ hxm)
  · obtain ⟨m',-,c',hc',hform⟩ := he.forma b hnew
    have hn : b.nome=none := by rw [hform]
    have hcb : b.colegiadoId=some c'.id := by rw [hform]
    rw [← Option.some.inj hc'] at hcb
    exact ⟨ha.novo_valido hr hb hn,hcb⟩

theorem mem_inscritos {e : Db} {r : String × String} (hr : r ∈ rs) {b : Aluno}
    (hb : e.dono r.1=some b) : (b.id,g.id) ∈ inscritos (some g) e rs := by
  refine List.mem_filterMap.mpr ⟨r,hr,?_⟩
  rw [hb]
  rfl

theorem Aceita.linha (ha : Aceita (some g) (some c) d rs)
    (hc : ∀ a ∈ d.alunos.rows,(d.colegiadoDe a.colegiadoId).isSome=true)
    (hcol : ∀ m ∈ rs.map (fun r => r.1),∀ a ∈ d.alunos.rows,a.matricula=some m →
      a.colegiadoId=some c.id ∧ ∀ b ∈ d.alunos.rows,b.matricula=some m → b=a)
    {m n : String} (hn : ultimoNome rs m=some n) :
    ∃ a ∈ (importado (some g) (some c) d rs).alunos.rows,a.matricula=some m ∧
      a.ativo=some true ∧ a.nome=some n ∧ a.colegiadoId=some c.id ∧
      (a.id,g.id) ∈ (importado (some g) (some c) d rs).alunosGrupos ∧
      ∀ x ∈ (importado (some g) (some c) d rs).alunos.rows,x.matricula=some m → x=a := by
  obtain ⟨novos,he,-⟩ := estende_comNovos (some c) d (rs.map (fun r => r.1))
  have hr := mem_of_ultimoNome hn
  obtain ⟨b,hb⟩ := ha.dono hr
  obtain ⟨hmem,hmat⟩ := Db.matricula_of_dono hb
  obtain ⟨hv,hcb⟩ := ha.valido hc hcol hr hb
  have hren := renomeado_of_some hv hmat hn
  refine ⟨ativado n b,mem_importado.mpr ⟨b,hmem,hren⟩,hmat,rfl,rfl,hcb,?_,?_⟩
  · have hi : (b.id,g.id) ∈ inscritos (some g) (comNovos (some c) d (rs.map (fun r => r.1))) rs :=
      mem_inscritos hr hb
    exact List.mem_append_right _ hi
  · intro x hx hxm
    obtain ⟨y,hy,rfl⟩ := mem_importado.mp hx
    rw [(renomeado_colunas d rs y).2.1] at hxm
    rw [Db.eq_of_valido ((he.alunoValido hmem).trans hv) hmem hy (hxm.trans hmat.symm)]
    exact hren

end established

/-- The import gives a new aluno its colegiado and leaves an old one the colegiado it has: the
assignment at the end of the loop body is never saved. -/
theorem importaEscalonamento_estabelece (contents : String) (g : Grupo) (c : Colegiado) (s : World)
    (hc : ∀ a ∈ s.db.alunos.rows,(s.db.colegiadoDe a.colegiadoId).isSome=true)
    (hok : ((importaEscalonamento contents (some g) (some c)).exec s).ok=true) :
    Importou s.db ((importaEscalonamento contents (some g) (some c)).exec s).state.db g.id c.id
      (registros contents) ↔
    ∀ m ∈ (registros contents).map (fun r => r.1),∀ a ∈ s.db.alunos.rows,a.matricula=some m →
      a.colegiadoId=some c.id ∧ ∀ b ∈ s.db.alunos.rows,b.matricula=some m → b=a := by
  obtain ⟨hiff,hdb⟩ := importaEscalonamento_iff (some g) (some c) contents s
  have ha := hiff.mp hok
  rw [hdb hok]
  generalize registros contents=rs at ha ⊢
  constructor
  · intro h m hm a hmem hmat
    obtain ⟨n,hn⟩ := exists_ultimoNome hm
    obtain ⟨x,hx,-,-,-,hcx,-,hu⟩ := h.linha m n hn
    -- every old aluno with the matricula has become `x`
    have hold : ∀ b ∈ s.db.alunos.rows,b.matricula=some m →
        renomeado (esvaziado (some g) s.db) rs b=x := by
      intro b hb hbm
      have hb : b ∈ (esvaziado (some g) s.db).alunos.rows := hb
      have hren : renomeado (esvaziado (some g) s.db) rs b ∈
          (importado (some g) (some c) (esvaziado (some g) s.db) rs).alunos.rows :=
        mem_importado.mpr ⟨b,mem_comNovos hb _,rfl⟩
      refine hu _ hren ?_
      rw [(renomeado_colunas _ rs b).2.1]
      exact hbm
    have hax := hold a hmem hmat
    constructor
    · rw [← (renomeado_colunas (esvaziado (some g) s.db) rs a).2.2,hax]
      exact hcx
    · intro b hb hbm
      refine s.db.alunos.key_injective hb hmem ?_
      rw [← key_renomeado (esvaziado (some g) s.db) rs b,hold b hb hbm,← hax,key_renomeado]
  · intro hcol
    exact ⟨fun m n hn => ha.linha hc hcol hn,fun a hm => mem_importado_alheio hm,
      filter_importado g s.db rs⟩

/-- An old aluno of the colegiado and a new one. -/
theorem importaEscalonamento_estabelece_cenario :
    Importou (Cenario.turma Cenario.veterano [(1,1)]).db
      ((importaEscalonamento "1 A\n2 B" (some Cenario.grupo) (some { id := 1 })).exec
        (Cenario.turma Cenario.veterano [(1,1)])).state.db 1 1 (registros "1 A\n2 B") :=
  (importaEscalonamento_estabelece "1 A\n2 B" Cenario.grupo { id := 1 }
    (Cenario.turma Cenario.veterano [(1,1)]) (by decide +kernel) (by decide +kernel)).mpr
    (by decide +kernel)

/-- Imported for colegiado 2, the aluno stays in colegiado 1. -/
theorem importaEscalonamento_mantemColegiado :
    ((importaEscalonamento "1 A" (some Cenario.grupo) (some { id := 2 })).exec
      (Cenario.turma Cenario.veterano [])).ok=true ∧
    ¬Importou (Cenario.turma Cenario.veterano []).db
      ((importaEscalonamento "1 A" (some Cenario.grupo) (some { id := 2 })).exec
        (Cenario.turma Cenario.veterano [])).state.db 1 2 (registros "1 A") := by
  refine ⟨by decide +kernel,?_⟩
  intro h
  obtain ⟨a,ha,-,-,-,hc,-⟩ := h.linha "1" "A" (by decide +kernel)
  have hall : ∀ b ∈ ((importaEscalonamento "1 A" (some Cenario.grupo) (some { id := 2 })).exec
      (Cenario.turma Cenario.veterano [])).state.db.alunos.rows,b.colegiadoId≠some 2 := by
    decide +kernel
  exact hall a ha hc

end ImporterController

end Sisfila
