import DesignSystem.Component.Fragments.Basic
/-!
# Fragments of the avatar
-/

namespace DesignSystem.Fragments

/-- The fragments of the avatar. -/
def avatar : Fragments where
  styles := Text.lines [
    ".avatar \x7b",
    "  display: inline-flex;",
    "  align-items: center;",
    "  justify-content: center;",
    "  overflow: hidden;",
    "  width: var(--ds-geometry-spacing-10);",
    "  height: var(--ds-geometry-spacing-10);",
    "  font-family: var(--ds-typography-variants-label-fontFamily);",
    "  font-size: var(--ds-typography-fontSize-sm);",
    "  font-weight: var(--ds-typography-fontWeight-semibold);",
    "  color: var(--ds-color-primary-700);",
    "  background: var(--ds-color-primary-100);",
    "  border-radius: var(--ds-geometry-radius-full);",
    "  user-select: none;",
    "\x7d",
    "",
    ".sm \x7b",
    "  width: var(--ds-geometry-spacing-8);",
    "  height: var(--ds-geometry-spacing-8);",
    "  font-size: var(--ds-typography-fontSize-xs);",
    "\x7d",
    "",
    ".lg \x7b",
    "  width: var(--ds-geometry-spacing-16);",
    "  height: var(--ds-geometry-spacing-16);",
    "  font-size: var(--ds-typography-fontSize-xl);",
    "\x7d",
    "",
    ".image \x7b",
    "  width: 100%;",
    "  height: 100%;",
    "  object-fit: cover;",
    "\x7d"]
  element := Text.lines [
    "<span class=\"avatar $\x7bthis.size\x7d\" part=\"avatar\" role=\"img\" aria-label=\"$\x7bescapeHtml(this.name)\x7d\">",
    "  $\x7bthis.src ? `<img class=\"image\" src=\"$\x7bescapeHtml(this.src)\x7d\" alt=\"\" />` : escapeHtml(this.initials)\x7d",
    "</span>"]
  reactView := Text.lines [
    "const initials = name",
    "  .split(/\\s+/)",
    "  .filter(Boolean)",
    "  .slice(0, 2)",
    "  .map((part) => part.charAt(0).toUpperCase())",
    "  .join('');",
    "",
    "return (",
    "  <span className=\x7bcx(styles.avatar, styles[size], className)\x7d role=\"img\" aria-label=\x7bname\x7d>",
    "    \x7bsrc ? <img className=\x7bstyles.image\x7d src=\x7bsrc\x7d alt=\"\" /> : initials\x7d",
    "  </span>",
    ");"]
  angularView := Text.lines [
    "<span class=\"avatar \x7b\x7b size \x7d\x7d\" role=\"img\" [attr.aria-label]=\"name\">",
    "  <img *ngIf=\"src; else fallback\" class=\"image\" [src]=\"src\" alt=\"\" />",
    "  <ng-template #fallback>\x7b\x7b initials \x7d\x7d</ng-template>",
    "</span>"]
  elementMembers := some <| Text.lines [
    "private get initials(): string \x7b",
    "  return this.name",
    "    .split(/\\s+/)",
    "    .filter(Boolean)",
    "    .slice(0, 2)",
    "    .map((part) => part.charAt(0).toUpperCase())",
    "    .join('');",
    "\x7d"]
  angularMembers := some <| Text.lines [
    "get initials(): string \x7b",
    "  return this.name",
    "    .split(/\\s+/)",
    "    .filter(Boolean)",
    "    .slice(0, 2)",
    "    .map((part) => part.charAt(0).toUpperCase())",
    "    .join('');",
    "\x7d"]

end DesignSystem.Fragments
