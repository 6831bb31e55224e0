import Sisfila.Model.Pages
import Sisfila.Queue.NextVaga

namespace Sisfila

namespace TelaController

variable {s : World} {m : Option String} {a : Aluno}

theorem posicaoAluno_variaveis {x : Variaveis} (hr : ((variaveis a).exec s).result=.ok x) :
    ∃ n,s.db.core.posicaoTotal a=.ok n ∧ x.posicaoAluno=some n := by
  obtain ⟨log,hx,-⟩ := reads_proximaVaga a s
  obtain ⟨log',hy,-⟩ := reads_posicaoTotal a s
  obtain ⟨vaga,-,hr⟩ := result_bind_ok hr
  rw [hx] at hr
  obtain ⟨n,hn,hr⟩ := result_bind_ok hr
  rw [hy] at hn
  refine ⟨n,hn,?_⟩
  split_ifs at hr with h0
  · obtain ⟨tempo,-,hr⟩ := result_bind_ok hr
    obtain ⟨agora,-,hr⟩ := result_bind_ok hr
    obtain ⟨mais,-,hr⟩ := result_bind_ok hr
    rw [← Except.ok.inj hr]
  · rw [← Except.ok.inj hr]

/-- The page and the answer of the action show one place and one wait. -/
theorem posicaoAluno_variaveis_eq (ha : s.db.alunos.rows.find? (fun a => a.matricula==m)=some a)
    {x : Variaveis} (hr : ((variaveis a).exec s).result=.ok x) {n : Int}
    (hn : x.posicaoAluno=some n) :
    ((posicaoAluno m).exec s).result=.ok (.posicao n x.tempoestimado) := by
  obtain ⟨log,hx,-⟩ := reads_proximaVaga a s
  obtain ⟨log',hy,-⟩ := reads_posicaoTotal a s
  obtain ⟨vaga,hvaga,hr⟩ := result_bind_ok hr
  rw [hx] at hr hvaga
  obtain ⟨k,hk,hr⟩ := result_bind_ok hr
  rw [hy] at hk hr
  have hk : s.db.core.posicaoTotal a=.ok k := hk
  have hvaga := Except.ok.inj hvaga
  dsimp only at hy hr
  rw [hk] at hy
  split_ifs at hr with h0
  · obtain ⟨tempo,ht,hr⟩ := result_bind_ok hr
    obtain ⟨agora,-,hr⟩ := result_bind_ok hr
    obtain ⟨mais,-,hr⟩ := result_bind_ok hr
    rw [← Except.ok.inj hr] at hn ⊢
    rw [← Option.some.inj hn]
    simp [posicaoAluno,Prog.exec_bind,ha,hx,hy,h0,hvaga,Outcome.andThen,ht]
  · rw [← Except.ok.inj hr] at hn ⊢
    rw [← Option.some.inj hn]
    simp [posicaoAluno,Prog.exec_bind,ha,hx,hy,h0]

theorem situacao_html {x : Variaveis} {pg : Pagina}
    (hr : ((posicaoAlunoHtml x).exec s).result=.ok pg) : pg.situacao=situacao x := by
  obtain ⟨atual,-,hr⟩ := result_bind_ok hr
  rw [← Except.ok.inj hr]

/-- The page shows what `posicao_total` gives, decoded by the view. -/
theorem situacao_paginaPosicao (ha : s.db.alunos.rows.find? (fun a => a.matricula==m)=some a)
    {pg : Pagina} (hr : ((paginaPosicao m).exec s).result=.ok (some pg)) :
    ∃ n x,s.db.core.posicaoTotal a=.ok n ∧ x.posicaoAluno=some n ∧ pg.situacao=situacao x := by
  obtain ⟨aluno,hal,hr⟩ := result_bind_ok hr
  rw [exec_consulta] at hal hr
  rw [← Except.ok.inj hal,ha] at hr
  obtain ⟨x,hx,hr⟩ := result_bind_ok hr
  obtain ⟨p,hp,hr⟩ := result_bind_ok hr
  obtain ⟨n,hn,hxn⟩ := posicaoAluno_variaveis hx
  rw [← Option.some.inj (Except.ok.inj hr)]
  exact ⟨n,x,hn,hxn,situacao_html hp⟩

/-- What the page should say of what `proxima_vaga` returns. -/
structure Verdadeira (x : Option (Vaga × Fila)) (p : Situacao) : Prop where
  naoEsta : p=.naoEstaNaFila ↔ x=none
  naVez : p=.estaNaSuaVez ↔ ∃ v f,x=some (v,f) ∧ v.posicao=some f.posicao
  lugar : ∀ v f,x=some (v,f) → v.posicao≠some f.posicao → ∃ n e,p=.posicaoGeral n e ∧ 0<n

theorem verdadeira_naVez {v : Vaga} {f : Fila} (he : v.posicao=some f.posicao) :
    Verdadeira (some (v,f)) .estaNaSuaVez := by
  refine ⟨by simp,iff_of_true rfl ⟨v,f,rfl,he⟩,?_⟩
  rintro v' f' hvf hne
  obtain ⟨rfl,rfl⟩ := Prod.mk.inj (Option.some.inj hvf)
  exact absurd he hne

theorem verdadeira_lugar {v : Vaga} {f : Fila} (he : v.posicao≠some f.posicao) {n : Int}
    (hn : 0<n) (e : Option (ℚ × ℚ)) : Verdadeira (some (v,f)) (.posicaoGeral n e) := by
  refine ⟨by simp,?_,fun _ _ _ _ => ⟨n,e,rfl,hn⟩⟩
  refine iff_of_false (by simp) ?_
  rintro ⟨v',f',hvf,heq⟩
  obtain ⟨rfl,rfl⟩ := Prod.mk.inj (Option.some.inj hvf)
  exact he heq

/-- Whoever is past the pointer is told a place in the queue. -/
theorem posicaoTotal_pos {v : Vaga} {f : Fila} (hv : s.db.proximaVaga a=some (v,f))
    (he : v.posicao≠some f.posicao) {n : Int} (hn : s.db.core.posicaoTotal a=.ok n) : 0<n := by
  obtain ⟨p,hp,hle⟩ := Db.le_of_proximaVaga hv
  have hlt : f.posicao<p := by
    refine lt_of_le_of_ne hle ?_
    intro h
    exact he (hp.trans (congrArg some h.symm))
  have hsum := posicaoTotal_apos hv hp hlt ((result_posicaoTotal a s).trans hn)
  have hnn := Core.sum_restam_nonneg (k := s.db.core) ((s.db.aFrente a f).map Fila.toFilaBase)
  rw [List.map_map] at hnn
  simp only [Function.comp_def] at hnn
  omega

/-- The page is right exactly about those who wait. To anyone else it shows the position -1: the
view asks whether there is a position, and -1 counts as one. -/
theorem paginaPosicao_verdadeira
    (ha : s.db.alunos.rows.find? (fun a => a.matricula==m)=some a) {x : Option (Vaga × Fila)}
    (hx : (a.proximaVaga.exec s).result=.ok x) {pg : Pagina}
    (hr : ((paginaPosicao m).exec s).result=.ok (some pg)) :
    Verdadeira x pg.situacao ↔ s.db.Aguarda a := by
  obtain ⟨n,y,hn,hyn,hpg⟩ := situacao_paginaPosicao ha hr
  rw [result_proximaVaga_eq] at hx
  rw [hpg,← Db.proximaVaga_ne_none_iff,Except.ok.inj hx]
  have hv := Except.ok.inj hx
  cases x with
  | none =>
    rw [Db.posicaoTotal_none hv] at hn
    have hn : n= -1 := (Except.ok.inj hn).symm
    refine iff_of_false ?_ (by simp)
    intro h
    have hs := h.naoEsta.mpr rfl
    rw [situacao,hyn,hn] at hs
    cases hs
  | some vf =>
    obtain ⟨v,f⟩ := vf
    refine iff_of_true ?_ (by simp)
    by_cases he : v.posicao=some f.posicao
    · rw [Db.posicaoTotal_some hv,if_pos he] at hn
      have hs : situacao y=.estaNaSuaVez := by
        rw [situacao,hyn,← Except.ok.inj hn]
        rfl
      rw [hs]
      exact verdadeira_naVez he
    · have hpos := posicaoTotal_pos hv he hn
      have hs : situacao y=.posicaoGeral n (some (y.tempoestimado,y.horaestimada)) := by
        rw [situacao,hyn]
        simp only [if_neg hpos.ne',if_pos hpos]
      rw [hs]
      exact verdadeira_lugar he hpos _

/-- First of a fila of its own, behind the first of the fila in front. -/
theorem paginaPosicao_verdadeira_cenario :
    ((paginaPosicao (some "a")).exec (Cenario.world Cenario.duas Cenario.umaEmCada)).result=
      .ok (some { nome := none, ultimaSenha := none, senha := some "_1",
                  situacao := .posicaoGeral 2 (some (120,120)) }) ∧
    ∃ x,((Cenario.aluno 1 "a").proximaVaga.exec
      (Cenario.world Cenario.duas Cenario.umaEmCada)).result=.ok x ∧
      Verdadeira x (.posicaoGeral 2 (some (120,120))) := by
  have hr : ((paginaPosicao (some "a")).exec (Cenario.world Cenario.duas Cenario.umaEmCada)).result=
      .ok (some { nome := none, ultimaSenha := none, senha := some "_1",
                  situacao := .posicaoGeral 2 (some (120,120)) }) := by
    decide +kernel
  have ha : (Cenario.world Cenario.duas Cenario.umaEmCada).db.alunos.rows.find?
      (fun a => a.matricula==some "a")=some (Cenario.aluno 1 "a") := by
    decide +kernel
  have hx := result_proximaVaga_eq (Cenario.aluno 1 "a")
    (Cenario.world Cenario.duas Cenario.umaEmCada)
  refine ⟨hr,_,hx,(paginaPosicao_verdadeira ha hx hr).mpr ?_⟩
  exact ⟨_,List.mem_cons_self,rfl,rfl,_,List.mem_cons_self,rfl,rfl,1,rfl,by decide⟩

/-- Nobody is in any fila, and the page shows the position -1. -/
theorem paginaPosicao_menosUm :
    ((Cenario.aluno 1 "a").proximaVaga.exec (Cenario.world Cenario.nova .empty)).result=.ok none ∧
    ((paginaPosicao (some "a")).exec (Cenario.world Cenario.nova .empty)).result=
      .ok (some { nome := none, ultimaSenha := none, senha := none,
                  situacao := .posicaoGeral (-1) none }) := by
  exact ⟨by rfl,by rfl⟩

end TelaController

end Sisfila
